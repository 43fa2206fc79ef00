/-
# Ragged rows behind one array of offsets

A list of blocks is stored as one flat list of values and the list of the
positions where the blocks start and end.  This is how columnar formats store
strings (blocks of bytes) and lists (blocks of child values).

* `block_encode`, `decode_encode` : reading a block back through its two offsets
  gives that block, and nothing of its neighbours;
* `push_encode` : appending a block at the end is one append to each of the two
  lists;
* `getElem?_flatten_offset_add` : entry `k` of block `i` stands in the flat list
  at `offset i + k`.
-/
import Mathlib.Algebra.BigOperators.Group.List.Lemmas
import Mathlib.Algebra.Order.Ring.Nat

variable {α : Type*}

/-- Flat values and the offsets of the blocks; `n` blocks have `n + 1`
offsets. -/
structure Ragged (α : Type*) where
  offsets : List ℕ
  values : List α

namespace Ragged

/-- The position in the flat list where block `i` starts. -/
def offset (bs : List (List α)) (i : ℕ) : ℕ := ((bs.map List.length).take i).sum

/-- The stored form of a list of blocks. -/
def encode (bs : List (List α)) : Ragged α where
  offsets := (List.range (bs.length + 1)).map (offset bs)
  values := bs.flatten

/-- The number of stored blocks. -/
def length (r : Ragged α) : ℕ := r.offsets.length - 1

/-- Block `i`, between its two offsets. -/
def block (r : Ragged α) (i : ℕ) : List α :=
  (r.values.take (r.offsets.getD (i + 1) 0)).drop (r.offsets.getD i 0)

/-- All stored blocks. -/
def decode (r : Ragged α) : List (List α) := (List.range r.length).map r.block

/-- Append a block: its values behind the old ones, and one more offset. -/
def push (r : Ragged α) (xs : List α) : Ragged α where
  offsets := r.offsets ++ [r.values.length + xs.length]
  values := r.values ++ xs

/-- Blocks `start`, …, `start + n - 1`, over the same values. -/
def slice (r : Ragged α) (start n : ℕ) : Ragged α where
  offsets := (r.offsets.drop start).take (n + 1)
  values := r.values

/-! ## Offsets -/

/-- The last offset is the length of the flat list. -/
theorem offset_length (bs : List (List α)) : offset bs bs.length = bs.flatten.length := by
  rw [offset, List.take_of_length_le (by simp), List.length_flatten]

/-- Blocks behind block `i` do not move it. -/
theorem offset_append_left (bs cs : List (List α)) {i : ℕ} (hi : i ≤ bs.length) :
    offset (bs ++ cs) i = offset bs i := by
  rw [offset, offset, List.map_append, List.take_append_of_le_length (by simpa using hi)]

/-- The offset after block `i`. -/
theorem offset_succ (bs : List (List α)) {i : ℕ} (hi : i < bs.length) :
    offset bs (i + 1) = offset bs i + bs[i].length := by
  rw [offset, offset, List.take_add_one]
  simp [hi]

/-- Offsets stay inside the flat list. -/
theorem offset_le_length (bs : List (List α)) (i : ℕ) :
    offset bs i ≤ bs.flatten.length := by
  have hsum : bs.flatten.length = offset bs i + ((bs.map List.length).drop i).sum := by
    rw [List.length_flatten, offset, List.sum_take_add_sum_drop]
  omega

/-! ## Reading blocks back -/

@[simp] theorem length_encode (bs : List (List α)) : (encode bs).length = bs.length := by
  simp [encode, length]

/-- **Block round trip.**  Values behind the last block, not yet closed by an
offset, do not disturb it. -/
theorem block_encode_append (bs : List (List α)) (rest : List α) {i : ℕ} (hi : i < bs.length) :
    (Ragged.mk (encode bs).offsets (bs.flatten ++ rest)).block i = bs[i] := by
  have hstart : (encode bs).offsets.getD i 0 = offset bs i := by
    simp [encode, Nat.lt_succ_of_lt hi]
  have hstop : (encode bs).offsets.getD (i + 1) 0 = offset bs (i + 1) := by
    simp [encode, hi]
  rw [block, hstart, hstop,
    List.take_append_of_le_length (offset_le_length bs (i + 1))]
  exact List.drop_take_succ_flatten_eq_getElem bs i hi

theorem block_encode (bs : List (List α)) {i : ℕ} (hi : i < bs.length) :
    (encode bs).block i = bs[i] := by
  have h := block_encode_append bs [] hi
  rwa [List.append_nil] at h

/-- The blocks of a slice are the blocks of the whole. -/
theorem block_slice (r : Ragged α) (start : ℕ) {n j : ℕ} (hj : j < n) :
    (r.slice start n).block j = r.block (start + j) := by
  have hget : ∀ k, k < n + 1 →
      ((r.offsets.drop start).take (n + 1)).getD k 0 = r.offsets.getD (start + k) 0 := by
    intro k hk
    rw [List.getD_eq_getElem?_getD, List.getElem?_take_of_lt hk, List.getElem?_drop,
      List.getD_eq_getElem?_getD]
  rw [block, block, slice, hget j (by omega), hget (j + 1) (by omega), Nat.add_assoc]

/-- The number of blocks of a slice. -/
theorem length_slice (r : Ragged α) {start n : ℕ} (h : start + n < r.offsets.length) :
    (r.slice start n).length = n := by
  rw [length, slice, List.length_take, List.length_drop]
  omega

/-- The round trip with values behind the last block. -/
theorem decode_encode_append (bs : List (List α)) (rest : List α) :
    (Ragged.mk (encode bs).offsets (bs.flatten ++ rest)).decode = bs := by
  have hlen : (Ragged.mk (encode bs).offsets (bs.flatten ++ rest)).length = bs.length :=
    length_encode bs
  rw [decode, hlen]
  refine List.ext_getElem (by simp) (fun i _ hi => ?_)
  rw [List.getElem_map, List.getElem_range]
  exact block_encode_append bs rest hi

/-- **Round trip.** -/
theorem decode_encode (bs : List (List α)) : (encode bs).decode = bs := by
  have h := decode_encode_append bs []
  rwa [List.append_nil] at h

/-- Appending to the stored form is appending a block. -/
theorem push_encode (bs : List (List α)) (xs : List α) :
    (encode bs).push xs = encode (bs ++ [xs]) := by
  have hvalues : bs.flatten ++ xs = (bs ++ [xs]).flatten := by simp
  have hlast : bs.flatten.length + xs.length = offset (bs ++ [xs]) (bs ++ [xs]).length := by
    rw [offset_length, ← hvalues, List.length_append]
  have hfirst : (List.range (bs.length + 1)).map (offset bs)
      = (List.range (bs.length + 1)).map (offset (bs ++ [xs])) := by
    refine List.map_congr_left (fun i hi => ?_)
    rw [offset_append_left bs [xs] (by rw [List.mem_range] at hi; omega)]
  rw [push, encode, encode, hvalues, hlast, hfirst]
  rw [List.length_append, List.length_singleton, List.range_succ (n := bs.length + 1),
    List.map_append, List.map_singleton]

/-! ## Positions in the flat list -/

/-- **Position formula.**  Entry `k` of block `i` stands at `offset i + k`. -/
theorem getElem?_flatten_offset_add (bs : List (List α)) {i k : ℕ} (hi : i < bs.length)
    (hk : k < bs[i].length) : bs.flatten[offset bs i + k]? = some bs[i][k] := by
  have hblock := List.drop_take_succ_flatten_eq_getElem bs i hi
  have hget : (((bs.flatten.take (offset bs (i + 1))).drop (offset bs i)))[k]? = some bs[i][k] := by
    rw [offset, offset, hblock, List.getElem?_eq_getElem hk]
  have hlt : offset bs i + k < offset bs (i + 1) := by
    rw [offset_succ bs hi]
    omega
  rwa [List.getElem?_drop, List.getElem?_take_of_lt hlt] at hget

end Ragged
