/-
# Columnar buffers

An `Arrow` made of the physical buffers of the Arrow columnar format: validity
bitmaps (absent when no slot is null), flat values, and offsets for strings and
lists.  Its builders only ever append to these buffers; reading a finished
column back through the offsets gives exactly the appended cells.

* `Layout` : an encoding of contents into buffers with a left inverse;
  `Layout.Buffers` are the buffers in its image, so a builder state that encodes
  nothing cannot be built.
* `slots`, `strings`, `lists` : the three layouts.
* `columnar` : the resulting `Arrow`.
-/
import Mathlib.Data.List.GetD
import YaraWorker.Arrow
import YaraWorker.Ragged
import YaraWorker.Utf8Bytes

open YaraWorker Utf8Bytes

namespace Columnar

/-! ## Layouts -/

/-- An encoding of contents into buffers, and its left inverse. -/
structure Layout (C P : Type) where
  encode : C → P
  decode : P → C
  decode_encode : ∀ c, decode (encode c) = c

namespace Layout

variable {C P : Type} (L : Layout C P)

/-- The buffers that encode some contents. -/
def Buffers : Type := {p : P // L.encode (L.decode p) = p}

def contents (b : L.Buffers) : C := L.decode b.1

def store (c : C) : L.Buffers := ⟨L.encode c, by rw [L.decode_encode]⟩

/-- Change the buffers by `f`, where `f` changes the contents by `g`. -/
def update (f : P → P) (g : C → C) (h : ∀ c, f (L.encode c) = L.encode (g c))
    (b : L.Buffers) : L.Buffers :=
  ⟨f b.1, by
    have hb : f b.1 = L.encode (g (L.decode b.1)) := by rw [← h, b.2]
    rw [hb, L.decode_encode]⟩

theorem contents_store (c : C) : L.contents (L.store c) = c := L.decode_encode c

theorem contents_update (f : P → P) (g : C → C) (h : ∀ c, f (L.encode c) = L.encode (g c))
    (b : L.Buffers) : L.contents (L.update f g h b) = g (L.contents b) := by
  have hb : f b.1 = L.encode (g (L.decode b.1)) := by rw [← h, b.2]
  show L.decode (f b.1) = g (L.decode b.1)
  rw [hb, L.decode_encode]

/-- Buffers are the encoding of their contents. -/
theorem val_eq (b : L.Buffers) : b.1 = L.encode (L.contents b) := b.2.symm

end Layout

/-- One validity bit and one value for each slot. -/
def slots (α : Type) [Inhabited α] : Layout (List (Option α)) (List Bool × List α) where
  encode cells := (cells.map Option.isSome, cells.map (fun c => c.getD default))
  decode p := List.zipWith (fun valid x => if valid then some x else none) p.1 p.2
  decode_encode := by
    intro cells
    induction cells with
    | nil => rfl
    | cons c cells ih =>
        rw [List.map_cons, List.map_cons, List.zipWith_cons_cons, ih]
        cases c <;> rfl

/-- One validity bit and one block of UTF-8 bytes for each slot. -/
def strings : Layout (List (Option String)) (List Bool × Ragged UInt8) where
  encode cells :=
    (cells.map Option.isSome, Ragged.encode (cells.map (fun c => textBytes (c.getD ""))))
  decode p :=
    List.zipWith (fun valid bytes => if valid then some ((fromUtf8 bytes).getD "") else none)
      p.1 p.2.decode
  decode_encode := by
    intro cells
    rw [Ragged.decode_encode]
    induction cells with
    | nil => rfl
    | cons c cells ih =>
        rw [List.map_cons, List.map_cons, List.zipWith_cons_cons, ih]
        cases c with
        | none => rfl
        | some s =>
            show some ((fromUtf8 (textBytes s)).getD "") :: cells = _
            rw [fromUtf8_textBytes, Option.getD_some]

/-- The offsets of the closed lists over one string column, which also holds the
values of the list still open. -/
def lists : Layout (List (List String) × List String) (List ℕ × List Bool × Ragged UInt8) where
  encode c :=
    ((Ragged.encode c.1).offsets, strings.encode ((c.1.flatten ++ c.2).map some))
  decode p :=
    let texts := (strings.decode p.2).map (fun s => s.getD "")
    let closed := (Ragged.mk p.1 texts).decode
    (closed, texts.drop closed.flatten.length)
  decode_encode := by
    rintro ⟨closed, pending⟩
    have htexts : (strings.decode (strings.encode ((closed.flatten ++ pending).map some))).map
        (fun s => s.getD "") = closed.flatten ++ pending := by
      rw [strings.decode_encode, List.map_map]
      exact List.map_id _
    simp only [htexts, Ragged.decode_encode_append, List.drop_left]

/-! ## Appending to buffers -/

theorem slots_append {α : Type} [Inhabited α] (cells : List (Option α)) (c : Option α) :
    (((slots α).encode cells).1 ++ [c.isSome], ((slots α).encode cells).2 ++ [c.getD default])
      = (slots α).encode (cells ++ [c]) := by
  simp [slots]

theorem strings_append (cells : List (Option String)) (c : Option String) :
    ((strings.encode cells).1 ++ [c.isSome],
      (strings.encode cells).2.push (textBytes (c.getD "")))
      = strings.encode (cells ++ [c]) := by
  simp only [strings, List.map_append, List.map_singleton, Ragged.push_encode]

/-- Closing a list writes one more offset, the number of child values. -/
theorem lists_close (closed : List (List String)) (pending : List String) :
    (Ragged.encode closed).offsets ++ [(closed.flatten ++ pending).length]
      = (Ragged.encode (closed ++ [pending])).offsets := by
  rw [← Ragged.push_encode, List.length_append]
  rfl

/-- The bitmap of a string column has one bit for each slot. -/
theorem length_bits_strings (texts : List String) :
    (strings.encode (texts.map some)).1.length = texts.length := by
  show ((texts.map some).map Option.isSome).length = texts.length
  rw [List.length_map, List.length_map]

/-- The value buffer holds as many bytes as the texts have. -/
theorem length_values_strings (cells : List (Option String)) :
    (strings.encode cells).2.values.length = textLen (cells.filterMap id) := by
  show (cells.map (fun c => textBytes (c.getD ""))).flatten.length = _
  induction cells with
  | nil => rfl
  | cons c cells ih =>
      rw [List.map_cons, List.flatten_cons, List.length_append, ih, length_textBytes]
      cases c with
      | none => exact Nat.zero_add _
      | some s => rfl

/-! ## Arrays -/

/-- The types whose slots are blocks of bytes. -/
inductive VarType
  | Utf8
  | LargeUtf8
  | Binary
  | LargeBinary
  deriving DecidableEq

def VarType.dataType : VarType → DataType
  | Utf8 => .Utf8
  | LargeUtf8 => .LargeUtf8
  | Binary => .Binary
  | LargeBinary => .LargeBinary

/-- Arrays by physical layout.  An array of another type (`other`) may have NULLs
its validity buffer does not show, such as a dictionary with a NULL value. -/
inductive Column
  | null (len : ℕ)
  | boolean (validity : Option (List Bool)) (values : List Bool)
  | int32 (validity : Option (List Bool)) (values : List Int32)
  | int64 (validity : Option (List Bool)) (values : List Int64)
  | bytes (ty : VarType) (validity : Option (List Bool)) (data : Ragged UInt8)
  | list (item : Field) (validity : Option (List Bool)) (offsets : List ℕ) (child : Column)
  | other (name : String) (validity : Option (List Bool)) (logicalNulls : List Bool)

/-- The validity buffer of a finished column, absent when every slot is valid. -/
def validityOf (bits : List Bool) : Option (List Bool) :=
  if bits.all id then none else some bits

/-- Whether a validity buffer marks slot `i` as null. -/
def marks : Option (List Bool) → ℕ → Bool
  | none, _ => false
  | some bits, i => !bits.getD i true

theorem marks_validityOf (bits : List Bool) (i : ℕ) :
    marks (validityOf bits) i = !bits.getD i true := by
  unfold validityOf
  by_cases hall : bits.all id = true
  · rw [if_pos hall]
    have hbit : bits.getD i true = true := by
      by_cases hi : i < bits.length
      · rw [List.getD_eq_getElem _ _ hi]
        exact List.all_eq_true.mp hall _ (List.getElem_mem hi)
      · rw [List.getD_eq_default _ _ (by omega)]
    rw [hbit]
    rfl
  · rw [if_neg hall]
    rfl

/-- The validity bits of a list of cells mark exactly the missing ones. -/
theorem marks_cells {α : Type} (cells : List (Option α)) {i : ℕ} (hi : i < cells.length) :
    marks (validityOf (cells.map Option.isSome)) i = cells[i].isNone := by
  rw [marks_validityOf, List.getD_eq_getElem _ _ (by simpa using hi), List.getElem_map]
  cases cells[i] <;> rfl

namespace Column

def len : Column → ℕ
  | null n => n
  | boolean _ values => values.length
  | int32 _ values => values.length
  | int64 _ values => values.length
  | bytes _ _ data => data.length
  | list _ _ offsets _ => offsets.length - 1
  | other _ _ logicalNulls => logicalNulls.length

def dataType : Column → DataType
  | null _ => .Null
  | boolean _ _ => .Boolean
  | int32 _ _ => .Int32
  | int64 _ _ => .Int64
  | bytes ty _ _ => ty.dataType
  | list item _ _ _ => .List item.name item.dataType item.nullable
  | other name _ _ => .Other name

def isNull : Column → ℕ → Bool
  | null _, _ => false
  | boolean validity _, i => marks validity i
  | int32 validity _, i => marks validity i
  | int64 validity _, i => marks validity i
  | bytes _ validity _, i => marks validity i
  | list _ validity _ _, i => marks validity i
  | other _ validity _, i => marks validity i

def isLogicalNull (c : Column) (i : ℕ) : Bool :=
  match c with
  | null _ => true
  | other _ validity logicalNulls => marks validity i || logicalNulls.getD i false
  | c => c.isNull i

def booleanValue : Column → ℕ → Bool
  | boolean _ values, i => values.getD i default
  | _, _ => default

def int32Value : Column → ℕ → Int32
  | int32 _ values, i => values.getD i default
  | _, _ => default

def int64Value : Column → ℕ → Int64
  | int64 _ values, i => values.getD i default
  | _, _ => default

def binaryValue : Column → ℕ → List UInt8
  | bytes _ _ data, i => data.block i
  | _, _ => []

def stringValue (c : Column) (i : ℕ) : String := (fromUtf8 (c.binaryValue i)).getD ""

/-- Slots `start`, …, `start + n - 1`; the values of an array with offsets are
shared. -/
def slice (c : Column) (start n : ℕ) : Column :=
  let part {α : Type} (xs : List α) := (xs.drop start).take n
  match c with
  | null _ => null n
  | boolean validity values => boolean (validity.map part) (part values)
  | int32 validity values => int32 (validity.map part) (part values)
  | int64 validity values => int64 (validity.map part) (part values)
  | bytes ty validity data =>
      bytes ty (validity.map part) (data.slice start n)
  | list item validity offsets child =>
      list item (validity.map part) ((offsets.drop start).take (n + 1)) child
  | other name validity logicalNulls => other name (validity.map part) (part logicalNulls)

def listValue : Column → ℕ → Column
  | list _ _ offsets child, i =>
      child.slice (offsets.getD i 0) (offsets.getD (i + 1) 0 - offsets.getD i 0)
  | _, _ => null 0

end Column

/-- The `Debug` name of a data type. -/
def debug : DataType → String
  | .Null => "Null"
  | .Boolean => "Boolean"
  | .Int32 => "Int32"
  | .Int64 => "Int64"
  | .Utf8 => "Utf8"
  | .LargeUtf8 => "LargeUtf8"
  | .Binary => "Binary"
  | .LargeBinary => "LargeBinary"
  | .List _ itemType _ => "List(" ++ debug itemType ++ ")"
  | .Other name => name

/-- Reading columns. -/
def arrays : ArrowArrays where
  ArrayRef := Column
  len := Column.len
  dataType := Column.dataType
  isNull := Column.isNull
  isLogicalNull := Column.isLogicalNull
  binaryValue := Column.binaryValue
  stringValue := Column.stringValue
  booleanValue := Column.booleanValue
  int32Value := Column.int32Value
  int64Value := Column.int64Value
  listValue := Column.listValue
  debug := debug
  isLogicalNull_of_isNull := by
    intro c i h
    cases c with
    | null n => rfl
    | other name validity logicalNulls =>
        have h' : marks validity i = true := h
        simp [Column.isLogicalNull, h']
    | _ => exact h
  isNull_of_isBytes := by
    intro c i hty h
    cases c with
    | null n => rcases hty with h | h | h | h <;> cases h
    | other name validity logicalNulls => rcases hty with h | h | h | h <;> cases h
    | _ => exact h
  isNull_null := by
    intro c i hty
    cases c with
    | null n => rfl
    | bytes ty validity data => cases ty <;> cases hty
    | _ => cases hty
  isLogicalNull_null := by
    intro c i hty _
    cases c with
    | null n => rfl
    | bytes ty validity data => cases ty <;> cases hty
    | _ => cases hty

/-! ## Finished columns -/

/-- A finished column of fixed-size slots reads back as its cells. -/
theorem cells_slots {α : Type} [Inhabited α] (value : Column → ℕ → α) (c : Column)
    (cells : List (Option α)) (hlen : c.len = cells.length)
    (hnull : ∀ i, c.isNull i = marks (validityOf ((slots α).encode cells).1) i)
    (hvalue : ∀ i, value c i = ((slots α).encode cells).2.getD i default) :
    arrays.cells value c = cells := by
  refine arrays.cells_eq value c cells hlen (fun i hi => ?_)
  have hv : value c i = cells[i].getD default := by
    rw [hvalue]
    simp [slots, hi]
  have hn : c.isNull i = cells[i].isNone := by
    rw [hnull]
    exact marks_cells cells hi
  show (if c.isNull i then none else some (value c i)) = cells[i]
  rw [hn, hv]
  cases cells[i] <;> rfl

/-- A column of texts. -/
def textColumn (ty : VarType) (cells : List (Option String)) : Column :=
  .bytes ty (validityOf (strings.encode cells).1) (strings.encode cells).2

/-- A column of byte strings. -/
def blobColumn (ty : VarType) (cells : List (Option (List UInt8))) : Column :=
  .bytes ty (validityOf (cells.map Option.isSome)) (Ragged.encode (cells.map (fun c => c.getD [])))

theorem isNull_textColumn (ty : VarType) (cells : List (Option String)) {i : ℕ}
    (hi : i < cells.length) : (textColumn ty cells).isNull i = cells[i].isNone :=
  marks_cells cells hi

theorem isNull_blobColumn (ty : VarType) (cells : List (Option (List UInt8))) {i : ℕ}
    (hi : i < cells.length) : (blobColumn ty cells).isNull i = cells[i].isNone :=
  marks_cells cells hi

theorem stringValue_textColumn (ty : VarType) (cells : List (Option String)) {i : ℕ}
    (hi : i < cells.length) : (textColumn ty cells).stringValue i = cells[i].getD "" := by
  have hblock : (strings.encode cells).2.block i = textBytes (cells[i].getD "") := by
    show (Ragged.encode (cells.map (fun c => textBytes (c.getD "")))).block i = _
    rw [Ragged.block_encode _ (by simpa using hi), List.getElem_map]
  show (fromUtf8 ((strings.encode cells).2.block i)).getD "" = _
  rw [hblock, fromUtf8_textBytes, Option.getD_some]

theorem binaryValue_blobColumn (ty : VarType) (cells : List (Option (List UInt8))) {i : ℕ}
    (hi : i < cells.length) : (blobColumn ty cells).binaryValue i = cells[i].getD [] := by
  show (Ragged.encode (cells.map (fun c => c.getD []))).block i = _
  rw [Ragged.block_encode _ (by simpa using hi), List.getElem_map]

/-- A text column reads back as its cells. -/
theorem cells_textColumn (ty : VarType) (cells : List (Option String)) :
    arrays.cells Column.stringValue (textColumn ty cells) = cells := by
  refine arrays.cells_eq _ _ cells ?_ (fun i hi => ?_)
  · show (Ragged.encode (cells.map (fun c => textBytes (c.getD "")))).length = cells.length
    rw [Ragged.length_encode, List.length_map]
  · show (if (textColumn ty cells).isNull i then none
      else some ((textColumn ty cells).stringValue i)) = cells[i]
    rw [isNull_textColumn ty cells hi, stringValue_textColumn ty cells hi]
    cases cells[i] <;> rfl

/-- The column of the child values of a list column. -/
def childColumn (texts : List String) : Column := textColumn .Utf8 (texts.map some)

theorem validityOf_some (texts : List String) :
    validityOf (strings.encode (texts.map some)).1 = none := by
  have hall : (strings.encode (texts.map some)).1.all id = true := by
    simp [strings]
  rw [validityOf, if_pos hall]

/-- **Lists read back.**  The offsets of the closed lists cut exactly their
values out of the child column, whatever is pending behind them. -/
theorem cells_listValue (item : Field) (closed : List (List String)) (pending : List String)
    {i : ℕ} (hi : i < closed.length) :
    arrays.cells Column.stringValue
      ((Column.list item none (Ragged.encode closed).offsets
        (childColumn (closed.flatten ++ pending))).listValue i) = closed[i].map some := by
  set texts := closed.flatten ++ pending with htexts
  -- the two offsets around list `i` stay within the values of the closed lists
  have hstart : (Ragged.encode closed).offsets.getD i 0 = Ragged.offset closed i := by
    simp [Ragged.encode, Nat.lt_succ_of_lt hi]
  have hstop : (Ragged.encode closed).offsets.getD (i + 1) 0
      = Ragged.offset closed i + closed[i].length := by
    rw [← Ragged.offset_succ closed hi]
    simp [Ragged.encode, hi]
  have hend : Ragged.offset closed i + closed[i].length ≤ closed.flatten.length := by
    rw [← Ragged.offset_succ closed hi]
    exact Ragged.offset_le_length closed (i + 1)
  -- so the list is a slice of the child column
  have hslice : (Column.list item none (Ragged.encode closed).offsets
        (childColumn texts)).listValue i
      = .bytes .Utf8 none ((strings.encode (texts.map some)).2.slice
          (Ragged.offset closed i) closed[i].length) := by
    show (childColumn texts).slice _ _ = _
    rw [hstart, hstop, Nat.add_sub_cancel_left, childColumn, textColumn, validityOf_some]
    rfl
  rw [hslice]
  refine arrays.cells_eq _ _ _ ?_ (fun j hj => ?_)
  · show ((strings.encode (texts.map some)).2.slice _ _).length = _
    rw [Ragged.length_slice, List.length_map]
    have hoffsets : (strings.encode (texts.map some)).2.offsets.length = texts.length + 1 := by
      simp [strings, Ragged.encode]
    rw [hoffsets, htexts, List.length_append]
    omega
  · -- slot `j` of the slice is slot `offset + j` of the child column
    have hj' : j < closed[i].length := by simpa using hj
    have htext : texts[Ragged.offset closed i + j]? = some closed[i][j] := by
      rw [htexts, List.getElem?_append_left (by omega)]
      exact Ragged.getElem?_flatten_offset_add closed hi hj'
    obtain ⟨hk, hget⟩ := List.getElem?_eq_some_iff.mp htext
    have hblock : ((strings.encode (texts.map some)).2.slice
        (Ragged.offset closed i) closed[i].length).block j = textBytes closed[i][j] := by
      rw [Ragged.block_slice _ _ hj']
      show (Ragged.encode ((texts.map some).map (fun c => textBytes (c.getD "")))).block _ = _
      rw [Ragged.block_encode _ (by simpa using hk), List.getElem_map, List.getElem_map, hget]
      rfl
    show some ((fromUtf8 (Ragged.block _ j)).getD "") = _
    rw [hblock, fromUtf8_textBytes, List.getElem_map, Option.getD_some]

/-! ## Builders -/

/-- Append one slot. -/
def appendSlot {α : Type} [Inhabited α] (c : Option α) : (slots α).Buffers → (slots α).Buffers :=
  (slots α).update (fun p => (p.1 ++ [c.isSome], p.2 ++ [c.getD default])) (· ++ [c])
    (fun cells => slots_append cells c)

/-- The builder of a column of fixed-size slots. -/
def slotBuilder (α : Type) [Inhabited α] (column : Option (List Bool) → List α → Column) :
    Builder Column α where
  State := (slots α).Buffers
  new := (slots α).store []
  appendValue b v := .ok (appendSlot (some v) b)
  appendNull := appendSlot none
  finish b := column (validityOf b.1.1) b.1.2
  contents := (slots α).contents

/-- A slot builder keeps its promises when its finished columns read back. -/
theorem slotBuilder_lawful {α : Type} [Inhabited α] (column : Option (List Bool) → List α → Column)
    (ty : DataType) (value : Column → ℕ → α)
    (hfinish : ∀ cells, arrays.Holds ty value
      (column (validityOf ((slots α).encode cells).1) ((slots α).encode cells).2) cells) :
    (slotBuilder α column).Lawful Unlimited (arrays.Holds ty value) where
  contents_new := (slots α).contents_store []
  contents_appendNull b := (slots α).contents_update _ _ _ b
  appendValue_ok b v _ := ⟨_, rfl, (slots α).contents_update _ _ _ b⟩
  appendValue_panic b v h := absurd trivial h
  holds_finish b := by
    have h := hfinish ((slots α).contents b)
    rw [← (slots α).val_eq b] at h
    exact h

/-- Append one string slot; a missing one repeats the last offset. -/
def appendText (c : Option String) : strings.Buffers → strings.Buffers :=
  strings.update (fun p => (p.1 ++ [c.isSome], p.2.push (textBytes (c.getD "")))) (· ++ [c])
    (fun cells => strings_append cells c)

/-- The `StringBuilder`, which panics when the next offset would exceed
`i32::MAX`. -/
def stringBuilder : Builder Column String where
  State := strings.Buffers
  new := strings.store []
  appendValue b s :=
    if b.1.2.values.length + s.utf8ByteSize ≤ i32Max then .ok (appendText (some s) b)
    else .error .panic
  appendNull := appendText none
  finish b := .bytes .Utf8 (validityOf b.1.1) b.1.2
  contents := strings.contents

/-- The next offset of a string builder is the text length of its contents. -/
theorem length_values_add (b : strings.Buffers) (s : String) :
    b.1.2.values.length + s.utf8ByteSize
      = textLen ((strings.contents b ++ [some s]).filterMap id) := by
  rw [strings.val_eq b, length_values_strings, List.filterMap_append]
  simp [textLen]

theorem stringBuilder_lawful :
    stringBuilder.Lawful FitsText (arrays.Holds .Utf8 Column.stringValue) where
  contents_new := strings.contents_store []
  contents_appendNull b := strings.contents_update _ _ _ b
  appendValue_ok b s h := ⟨appendText (some s) b, if_pos ((length_values_add b s).le.trans h),
    strings.contents_update _ _ _ b⟩
  appendValue_panic b s h := if_neg (fun hle => h ((length_values_add b s).ge.trans hle))
  holds_finish b := by
    refine ⟨rfl, ?_⟩
    have h := cells_textColumn .Utf8 (strings.contents b)
    rw [textColumn, ← strings.val_eq b] at h
    exact h

/-- Append a child value to the list still open. -/
def appendChild (s : String) : lists.Buffers → lists.Buffers :=
  lists.update (fun p => (p.1, p.2.1 ++ [true], p.2.2.push (textBytes s)))
    (fun c => (c.1, c.2 ++ [s])) (fun c => by
      have h := strings_append ((c.1.flatten ++ c.2).map some) (some s)
      show ((Ragged.encode c.1).offsets, _, _) = ((Ragged.encode c.1).offsets, _)
      rw [← List.append_assoc, List.map_append, List.map_singleton, ← h]
      rfl)

/-- Close the open list: one more offset, the number of child values. -/
def closeList : lists.Buffers → lists.Buffers :=
  lists.update (fun p => (p.1 ++ [p.2.1.length], p.2)) (fun c => (c.1 ++ [c.2], [])) (fun c => by
    have hlen : (lists.encode c).2.1.length = (c.1.flatten ++ c.2).length := length_bits_strings _
    have hflat : (c.1 ++ [c.2]).flatten ++ [] = c.1.flatten ++ c.2 := by simp
    show ((Ragged.encode c.1).offsets ++ [_], _) = ((Ragged.encode (c.1 ++ [c.2])).offsets, _)
    rw [hlen, lists_close, hflat]
    rfl)

/-- The child values of a list builder, closed or pending. -/
def childValues (b : lists.Buffers) : List String :=
  (lists.contents b).1.flatten ++ (lists.contents b).2

theorem length_child (b : lists.Buffers) : b.1.2.1.length = (childValues b).length := by
  rw [lists.val_eq b]
  exact length_bits_strings (childValues b)

theorem length_child_text (b : lists.Buffers) (s : String) :
    b.1.2.2.values.length + s.utf8ByteSize = textLen (childValues b ++ [s]) := by
  have h : b.1.2.2.values.length = textLen (childValues b) := by
    rw [lists.val_eq b]
    refine (length_values_strings ((childValues b).map some)).trans ?_
    rw [List.filterMap_map]
    exact congrArg textLen List.filterMap_some
  rw [h, textLen, textLen, List.map_append, List.sum_append]
  simp

/-- The `ListBuilder<StringBuilder>`, with 32-bit offsets on both levels. -/
def listBuilder : ListBuilder Column where
  State := Field × lists.Buffers
  new f := (f, lists.store ([], []))
  valuesAppendValue b s :=
    if b.2.1.2.2.values.length + s.utf8ByteSize ≤ i32Max then .ok (b.1, appendChild s b.2)
    else .error .panic
  appendTrue b :=
    if b.2.1.2.1.length ≤ i32Max then .ok (b.1, closeList b.2) else .error .panic
  finish b := .list b.1 none b.2.1.1 (.bytes .Utf8 (validityOf b.2.1.2.1) b.2.1.2.2)
  closed b := (lists.contents b.2).1
  pending b := (lists.contents b.2).2
  field b := b.1

theorem listBuilder_lawful : listBuilder.Lawful arrays.HoldsLists where
  closed_new f := congrArg Prod.fst (lists.contents_store ([], []))
  pending_new f := congrArg Prod.snd (lists.contents_store ([], []))
  field_new f := rfl
  valuesAppendValue_ok b s h := by
    have hcontents : lists.contents (appendChild s b.2)
        = ((lists.contents b.2).1, (lists.contents b.2).2 ++ [s]) := lists.contents_update _ _ _ b.2
    have hclosed : (lists.contents (appendChild s b.2)).1 = (lists.contents b.2).1 := by
      rw [hcontents]
    have hpending : (lists.contents (appendChild s b.2)).2 = (lists.contents b.2).2 ++ [s] := by
      rw [hcontents]
    exact ⟨(b.1, appendChild s b.2), if_pos ((length_child_text b.2 s).le.trans h), hclosed,
      hpending, rfl⟩
  appendTrue_ok b h := by
    have hcontents : lists.contents (closeList b.2)
        = ((lists.contents b.2).1 ++ [(lists.contents b.2).2], []) := lists.contents_update _ _ _ b.2
    have hclosed : (lists.contents (closeList b.2)).1
        = (lists.contents b.2).1 ++ [(lists.contents b.2).2] := by
      rw [hcontents]
    have hpending : (lists.contents (closeList b.2)).2 = [] := by
      rw [hcontents]
    exact ⟨(b.1, closeList b.2), if_pos ((length_child b.2).le.trans h), hclosed, hpending, rfl⟩
  holds_finish b := by
    refine ⟨rfl, ?_⟩
    show arrays.listCells (Column.list b.1 none b.2.1.1 (.bytes .Utf8 _ _))
      = (lists.contents b.2).1.map (fun texts => some (texts.map some))
    rw [lists.val_eq b.2]
    refine arrays.cells_eq _ _ _ ?_ (fun i hi => ?_)
    · rw [List.length_map]
      exact Ragged.length_encode (lists.contents b.2).1
    · rw [List.getElem_map]
      exact congrArg some (cells_listValue b.1 _ _ (by simpa using hi))

/-! ## Record batches -/

/-- Columns of one length under a schema. -/
structure Batch where
  schema : Schema
  columns : List Column
  rows : ℕ

/-- The checks of `RecordBatch::try_new` on columns of `rows` slots. -/
def checkColumns (rows : ℕ) : Schema → List Column → Bool
  | [], [] => true
  | f :: fs, c :: cs =>
      decide (c.dataType = f.dataType) && c.len == rows
        && (f.nullable || (List.range rows).all (fun i => !c.isNull i)) && checkColumns rows fs cs
  | _, _ => false

def tryNew (schema : Schema) (columns : List Column) : Except String Batch :=
  match columns with
  | [] => .error "must either specify a row count or at least one column"
  | c :: _ =>
      if checkColumns c.len schema columns then .ok ⟨schema, columns, c.len⟩
      else .error "columns do not match the schema"

theorem checkColumns_of_accepts (rows : ℕ) (schema : Schema) (columns : List Column)
    (h : List.Forall₂ (fun (f : Field) a => arrays.dataType a = f.dataType ∧ arrays.len a = rows
      ∧ (f.nullable = false → ∀ i < rows, arrays.isNull a i = false)) schema columns) :
    checkColumns rows schema columns = true := by
  induction h with
  | nil => rfl
  | @cons f c fs cs hc _ ih =>
      obtain ⟨hty, hlen, hnull⟩ := hc
      have hvalid : (f.nullable || (List.range rows).all (fun i => !c.isNull i)) = true := by
        cases hf : f.nullable with
        | true => rfl
        | false =>
            rw [Bool.false_or, List.all_eq_true]
            intro i hi
            rw [show c.isNull i = false from hnull hf i (List.mem_range.mp hi)]
            rfl
      have hty' : c.dataType = f.dataType := hty
      have hlen' : c.len = rows := hlen
      rw [checkColumns, ih, hvalid, hlen', decide_eq_true hty', beq_self_eq_true]
      rfl

theorem tryNew_of_accepts (schema : Schema) (columns : List Column) (rows : ℕ)
    (h : arrays.Accepts schema columns rows) :
    ∃ b : Batch, tryNew schema columns = .ok b ∧ b.rows = rows
      ∧ ∀ i a, columns[i]? = some a → b.columns.getD i (.null 0) = a := by
  obtain ⟨hne, haccepts⟩ := h
  cases columns with
  | nil => exact absurd rfl hne
  | cons c cs =>
      have hrows : c.len = rows := by
        cases haccepts with
        | cons h _ => exact h.2.1
      have hcheck : checkColumns c.len schema (c :: cs) = true := by
        rw [hrows]
        exact checkColumns_of_accepts rows schema (c :: cs) haccepts
      refine ⟨⟨schema, c :: cs, c.len⟩, if_pos hcheck, hrows, fun i a ha => ?_⟩
      rw [List.getD_eq_getElem?_getD, ha, Option.getD_some]

/-! ## The interface -/

/-- **The columnar Arrow.** -/
def columnar : Arrow where
  toArrowArrays := arrays
  booleanBuilder := slotBuilder Bool .boolean
  int32Builder := slotBuilder Int32 .int32
  int64Builder := slotBuilder Int64 .int64
  stringBuilder := stringBuilder
  listBuilder := listBuilder
  RecordBatch := Batch
  numRows := Batch.rows
  column b i := b.columns.getD i (.null 0)
  tryNew := tryNew
  boolean_lawful := slotBuilder_lawful _ _ _ (fun cells => ⟨rfl, cells_slots _ _ cells
    (List.length_map _) (fun _ => rfl) (fun _ => rfl)⟩)
  int32_lawful := slotBuilder_lawful _ _ _ (fun cells => ⟨rfl, cells_slots _ _ cells
    (List.length_map _) (fun _ => rfl) (fun _ => rfl)⟩)
  int64_lawful := slotBuilder_lawful _ _ _ (fun cells => ⟨rfl, cells_slots _ _ cells
    (List.length_map _) (fun _ => rfl) (fun _ => rfl)⟩)
  string_lawful := stringBuilder_lawful
  list_lawful := listBuilder_lawful
  tryNew_ok := tryNew_of_accepts

end Columnar
