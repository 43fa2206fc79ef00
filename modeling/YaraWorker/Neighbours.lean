/-
# Neighbouring repetitions

`l.destutter (· ≠ ·)` drops every element equal to the one before it.  Its length is the
number of blocks of equal neighbours, which grows and shrinks by little when lists are cut
and joined.

* `length_destutter_append_le`, `le_length_destutter_append` : two lists joined;
* `length_destutter_flatten_le`, `sum_length_destutter_le` : any number of them.
-/
import Mathlib.Data.List.Destutter
import Mathlib.Algebra.Order.Ring.Nat

namespace Neighbours

variable {α : Type*} [DecidableEq α]

/-- Joining two lists adds no block. -/
theorem length_destutter_append_le (l₁ l₂ : List α) :
    ((l₁ ++ l₂).destutter (· ≠ ·)).length
      ≤ (l₁.destutter (· ≠ ·)).length + (l₂.destutter (· ≠ ·)).length := by
  have hchain := List.isChain_destutter (· ≠ ·) (l₁ ++ l₂)
  obtain ⟨s₁, s₂, hs, h₁, h₂⟩ :=
    List.sublist_append_iff.mp (List.destutter_sublist (· ≠ ·) (l₁ ++ l₂))
  rw [hs] at hchain ⊢
  rw [List.isChain_append] at hchain
  rw [List.length_append]
  have hle₁ := hchain.1.length_le_length_destutter_ne h₁
  have hle₂ := hchain.2.1.length_le_length_destutter_ne h₂
  omega

/-- Joining two lists loses one block at most, the one at the seam. -/
theorem le_length_destutter_append (l₁ l₂ : List α) :
    (l₁.destutter (· ≠ ·)).length + (l₂.destutter (· ≠ ·)).length
      ≤ ((l₁ ++ l₂).destutter (· ≠ ·)).length + 1 := by
  have hchain₁ := List.isChain_destutter (· ≠ ·) l₁
  have hchain₂ := List.isChain_destutter (· ≠ ·) l₂
  have hsub₁ := List.destutter_sublist (· ≠ ·) l₁
  have hsub₂ := List.destutter_sublist (· ≠ ·) l₂
  generalize l₁.destutter (· ≠ ·) = d₁ at hchain₁ hsub₁ ⊢
  generalize l₂.destutter (· ≠ ·) = d₂ at hchain₂ hsub₂ ⊢
  by_cases hseam : ∀ x ∈ d₁.getLast?, ∀ y ∈ d₂.head?, x ≠ y
  · have hchain : (d₁ ++ d₂).IsChain (· ≠ ·) := List.isChain_append.mpr ⟨hchain₁, hchain₂, hseam⟩
    have hle := hchain.length_le_length_destutter_ne (hsub₁.append hsub₂)
    rw [List.length_append] at hle
    omega
  · -- the last block of the one is the first block of the other
    obtain _ | ⟨y, d₂⟩ := d₂
    · simp at hseam
    · have hchain : (d₁ ++ d₂).IsChain (· ≠ ·) := by
        rw [List.isChain_append]
        refine ⟨hchain₁, hchain₂.tail, ?_⟩
        intro x hx z hz
        have hlast : x = y := by
          by_contra hne
          apply hseam
          intro x' hx' y' hy'
          rw [List.head?_cons] at hy'
          cases hy'
          rw [Option.mem_unique hx' hx]
          exact hne
        rw [hlast]
        exact (List.isChain_cons.mp hchain₂).1 z hz
      have hle := hchain.length_le_length_destutter_ne
        (hsub₁.append ((List.sublist_cons_self y d₂).trans hsub₂))
      rw [List.length_append] at hle
      rw [List.length_cons]
      omega

/-- Joining lists adds no block. -/
theorem length_destutter_flatten_le (ls : List (List α)) :
    (ls.flatten.destutter (· ≠ ·)).length
      ≤ (ls.map (fun l => (l.destutter (· ≠ ·)).length)).sum := by
  induction ls with
  | nil => exact le_refl 0
  | cons l ls ih =>
      rw [List.flatten_cons, List.map_cons, List.sum_cons]
      have hle := length_destutter_append_le l ls.flatten
      omega

/-- Joining lists loses at most one block for each of them. -/
theorem sum_length_destutter_le (ls : List (List α)) :
    (ls.map (fun l => (l.destutter (· ≠ ·)).length)).sum
      ≤ (ls.flatten.destutter (· ≠ ·)).length + ls.length := by
  induction ls with
  | nil => exact le_refl 0
  | cons l ls ih =>
      rw [List.flatten_cons, List.map_cons, List.sum_cons, List.length_cons]
      have hle := le_length_destutter_append l ls.flatten
      omega

end Neighbours
