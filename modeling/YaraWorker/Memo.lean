/-
# One-entry memos of a fallible function

A memo of `f : κ → Except ε ν` is empty, or holds one key with the value `f`
gives for it.  The third field of `entry` is the proof that the value is right,
so a stale memo cannot be built.  Failures are not stored.

* `fetch_fst` : a fetch always returns `f k`, whatever the memo holds;
* `key?_after` : after a run of fetches a memo holds the last key on which `f`
  succeeded.
-/
import Mathlib.Logic.Basic

variable {κ ν ε : Type*}

/-- A one-entry memo of `f`. -/
inductive Memo (f : κ → Except ε ν) : Type _
  | empty : Memo f
  | entry (key : κ) (value : ν) (valid : f key = .ok value) : Memo f

namespace Memo

variable {f : κ → Except ε ν}

/-- The key a memo holds. -/
def key? : Memo f → Option κ
  | empty => none
  | entry k _ _ => some k

/-- The value a memo holds. -/
def value? : Memo f → Option ν
  | empty => none
  | entry _ v _ => some v

/-- Run `f` on a key and store the value; a failure leaves the memo alone. -/
def refill (m : Memo f) (k : κ) : Except ε ν × Memo f :=
  match h : f k with
  | .ok v => (.ok v, entry k v h)
  | .error e => (.error e, m)

/-- Read a key through the memo: only a key other than the stored one runs
`f`. -/
def fetch [DecidableEq κ] (m : Memo f) (k : κ) : Except ε ν × Memo f :=
  match m with
  | empty => refill empty k
  | entry k' v h => if k' = k then (.ok v, entry k' v h) else refill (entry k' v h) k

/-- A refill on a key where `f` gives a value. -/
theorem refill_of_ok (m : Memo f) {k : κ} {v : ν} (h : f k = .ok v) :
    m.refill k = (.ok v, entry k v h) := by
  unfold refill
  split
  · next v' h' =>
    have hv : v' = v := by
      rw [h] at h'
      injection h' with h'
      exact h'.symm
    subst hv
    rfl
  · next e h' =>
    rw [h] at h'
    cases h'

/-- A refill on a key where `f` fails. -/
theorem refill_of_error (m : Memo f) {k : κ} {e : ε} (h : f k = .error e) :
    m.refill k = (.error e, m) := by
  unfold refill
  split
  · next v' h' =>
    rw [h] at h'
    cases h'
  · next e' h' =>
    rw [h] at h'
    cases h'
    rfl

/-- A refill returns what `f` gives. -/
theorem refill_fst (m : Memo f) (k : κ) : (m.refill k).1 = f k := by
  cases h : f k with
  | ok v => rw [refill_of_ok m h]
  | error e => rw [refill_of_error m h]

variable [DecidableEq κ]

/-- A fetch of the stored key returns the stored value. -/
theorem fetch_of_key_eq {m : Memo f} {k : κ} (h : m.key? = some k) :
    ∃ v, m.value? = some v ∧ m.fetch k = (.ok v, m) := by
  cases m with
  | empty => cases h
  | entry k' v hv =>
      cases h
      exact ⟨v, rfl, if_pos rfl⟩

/-- A fetch of any other key is a refill. -/
theorem fetch_of_key_ne {m : Memo f} {k : κ} (h : m.key? ≠ some k) :
    m.fetch k = m.refill k := by
  cases m with
  | empty => rfl
  | entry k' v hv =>
      have hne : k' ≠ k := fun hk => h (congrArg some hk)
      exact if_neg hne

/-- **Transparency.**  A fetch returns exactly what `f` gives, whatever the memo
holds. -/
theorem fetch_fst (m : Memo f) (k : κ) : (m.fetch k).1 = f k := by
  cases m with
  | empty => exact refill_fst empty k
  | entry k' v hv =>
      by_cases hk : k' = k
      · subst hk
        rw [fetch, if_pos rfl, hv]
      · rw [fetch, if_neg hk]
        exact refill_fst _ k

/-! ## Runs -/

/-- The memo after fetching the keys of a list in turn. -/
def after (m : Memo f) (ks : List κ) : Memo f :=
  ks.foldl (fun m k => (m.fetch k).2) m

/-- A fetch leaves a memo of its key, unless `f` fails on it. -/
theorem key?_fetch (m : Memo f) (k : κ) :
    (m.fetch k).2.key? = if (f k).isOk then some k else m.key? := by
  by_cases hkey : m.key? = some k
  · obtain ⟨v, -, hfetch⟩ := fetch_of_key_eq hkey
    rw [hfetch, hkey, ite_self]
  · rw [fetch_of_key_ne hkey]
    cases h : f k with
    | ok v =>
        rw [refill_of_ok m h]
        rfl
    | error e =>
        rw [refill_of_error m h]
        rfl

/-- **The history of a memo.**  After a run it holds the last key of the run on which `f`
succeeded, or what it held before when there is none. -/
theorem key?_after (m : Memo f) (ks : List κ) :
    (m.after ks).key? = ((ks.filter (fun k => (f k).isOk)).getLast?).or m.key? := by
  induction ks generalizing m with
  | nil => rfl
  | cons k ks ih =>
      show ((m.fetch k).2.after ks).key? = _
      rw [ih, key?_fetch, List.filter_cons]
      by_cases hok : (f k).isOk
      · rw [if_pos hok, if_pos hok, List.getLast?_cons]
        cases (ks.filter (fun k => (f k).isOk)).getLast? <;> rfl
      · rw [if_neg hok, if_neg hok]

end Memo
