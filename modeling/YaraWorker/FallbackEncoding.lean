/-
# Encodings with a fallback

An encoder that renders a value in a preferred form when it has one and in a
fallback form otherwise.  Each form alone is injective, but their output
languages may overlap; `encode_eq_iff` says that the overlap is the only source
of collisions.
-/
import Mathlib.Data.Option.Basic

/-- A preferred partial encoding and a total fallback, each injective. -/
structure FallbackEncoding (B T : Type*) where
  preferred : B → Option T
  fallback : B → T
  preferred_inj : ∀ {a b t}, preferred a = some t → preferred b = some t → a = b
  fallback_inj : ∀ {a b}, fallback a = fallback b → a = b

namespace FallbackEncoding

variable {B T : Type*} (E : FallbackEncoding B T)

/-- The preferred form where there is one, else the fallback. -/
def encode (b : B) : T := (E.preferred b).getD (E.fallback b)

variable {E}

theorem encode_of_some {b : B} {t : T} (h : E.preferred b = some t) : E.encode b = t := by
  rw [encode, h, Option.getD_some]

theorem encode_of_none {b : B} (h : E.preferred b = none) : E.encode b = E.fallback b := by
  rw [encode, h, Option.getD_none]

/-- A value in fallback form collides with one in preferred form exactly when
the preferred form of the second is the fallback form of the first. -/
theorem encode_eq_iff_of_none_of_some {a b : B} {t : T} (ha : E.preferred a = none)
    (hb : E.preferred b = some t) : E.encode a = E.encode b ↔ E.preferred b = some (E.fallback a) := by
  rw [encode_of_none ha, encode_of_some hb, hb, Option.some.injEq, eq_comm]

/-- **The collisions of a fallback encoding.**  Two different values share their
rendering exactly when one of them has no preferred form and the preferred form
of the other is its fallback form. -/
theorem encode_eq_iff {a b : B} (hne : a ≠ b) :
    E.encode a = E.encode b ↔
      (E.preferred a = none ∧ E.preferred b = some (E.fallback a))
        ∨ (E.preferred b = none ∧ E.preferred a = some (E.fallback b)) := by
  cases ha : E.preferred a with
  | none =>
      cases hb : E.preferred b with
      | none =>
          -- two fallback forms are told apart by the fallback
          rw [encode_of_none ha, encode_of_none hb]
          simp only [reduceCtorEq, and_false, or_self, iff_false]
          exact fun h => hne (E.fallback_inj h)
      | some t =>
          rw [encode_eq_iff_of_none_of_some ha hb, hb]
          simp
  | some s =>
      cases hb : E.preferred b with
      | none =>
          rw [eq_comm, encode_eq_iff_of_none_of_some hb ha, ha]
          simp
      | some t =>
          -- two preferred forms are told apart by the preferred encoding
          rw [encode_of_some ha, encode_of_some hb]
          simp only [reduceCtorEq, false_and, or_self, iff_false]
          rintro rfl
          exact hne (E.preferred_inj ha hb)

end FallbackEncoding
