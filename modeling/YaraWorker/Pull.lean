/-
# Pulling from a producer

A producer is pulled by calling `next`, which returns an item, `none` when it has
no more, or an error, and the producer after the call.

* `calls` : what a number of calls in a row return;
* `Drains` : the items a consumer gets that pulls until the first `none`;
* `calls_once`, `drains_once` : a producer that gives one item and then stays
  empty.
-/
import Mathlib.Data.List.Basic

namespace Pull

variable {σ ε β : Type*}

/-- The results of `n` calls in a row; an error does not end them. -/
def calls (next : σ → Except ε (Option β) × σ) : ℕ → σ → List (Except ε (Option β))
  | 0, _ => []
  | n + 1, s => (next s).1 :: calls next n (next s).2

/-- Pulling from `s` until the first `none` gives exactly these items. -/
inductive Drains (next : σ → Except ε (Option β) × σ) : σ → List β → Prop
  | stop {s s' : σ} : next s = (.ok none, s') → Drains next s []
  | more {s s' : σ} {b : β} {bs : List β} :
      next s = (.ok (some b), s') → Drains next s' bs → Drains next s (b :: bs)

variable {next : σ → Except ε (Option β) × σ} {s s' : σ}

/-- An empty producer that stays as it is returns `none` for ever. -/
theorem calls_of_empty (h : next s = (.ok none, s)) (n : ℕ) :
    calls next n s = List.replicate n (.ok none) := by
  induction n with
  | zero => rfl
  | succ n ih => rw [calls, h, ih, List.replicate_succ]

/-- One result, and `none` for ever after. -/
theorem calls_once {x : Except ε (Option β)} (hfirst : next s = (x, s'))
    (hrest : next s' = (.ok none, s')) (n : ℕ) :
    calls next (n + 1) s = x :: List.replicate n (.ok none) := by
  rw [calls, hfirst, calls_of_empty hrest]

theorem drains_once {b : β} (hfirst : next s = (.ok (some b), s'))
    (hrest : next s' = (.ok none, s')) : Drains next s [b] :=
  .more hfirst (.stop hrest)

/-- A consumer gets one list of items. -/
theorem Drains.unique {bs cs : List β} (hb : Drains next s bs) (hc : Drains next s cs) :
    bs = cs := by
  induction hb generalizing cs with
  | stop h =>
      cases hc with
      | stop h' => rfl
      | more h' _ =>
          rw [h] at h'
          cases h'
  | more h _ ih =>
      cases hc with
      | stop h' =>
          rw [h] at h'
          cases h'
      | more h' hc =>
          rw [h] at h'
          cases h'
          rw [ih hc]

end Pull
