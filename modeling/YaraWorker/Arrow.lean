/-
# The Arrow interface of the worker

What the worker uses of the `arrow` crates, as a parameter `A : Arrow`: array
accessors, column builders and `RecordBatch::try_new`, with the documented
behaviour the worker relies on as fields.  `Columnar.lean` builds an `Arrow`
from physical buffers, so the fields are consistent.

* `ArrowArrays` : reading arrays.  `Array::is_null` (`isNull`) consults the
  physical validity buffer only; `isLogicalNull` is SQL's notion of NULL.
* `Builder`, `ListBuilder` : append-only column builders.  `contents` (`closed`
  and `pending` for lists) is what has been appended so far; a builder with
  32-bit offsets panics when its text outgrows `i32::MAX` bytes.
* `Arrow` : both together, and `RecordBatch::try_new`.
-/
import Mathlib.Algebra.Order.Ring.Nat
import Mathlib.Data.List.Forall2

namespace YaraWorker

/-! ## Results of a call -/

/-- The errors of `vgi_rpc` the worker raises. -/
inductive RpcError
  | valueError (message : String)
  | runtimeError (message : String)
  deriving DecidableEq, Repr

/-- Why a call ends without a value: a reported error, or a panic. -/
inductive Stop
  | error (e : RpcError)
  | panic
  deriving DecidableEq, Repr

/-- The result of a call of the worker. -/
abbrev Outcome (α : Type) := Except Stop α

/-- `i32::MAX`, the largest position a 32-bit offset can hold. -/
def i32Max : ℕ := 2 ^ 31 - 1

/-! ## Types and schemas -/

/-- Arrow's data types: those the worker names, and `Other` for the rest
(integers of other widths, dictionaries, unions, …). -/
inductive DataType
  | Null
  | Boolean
  | Int32
  | Int64
  | Utf8
  | LargeUtf8
  | Binary
  | LargeBinary
  | List (itemName : String) (itemType : DataType) (itemNullable : Bool)
  | Other (name : String)
  deriving DecidableEq, Repr

/-- A BLOB or VARCHAR column, what the scan functions accept as data. -/
def DataType.IsBytes (ty : DataType) : Prop :=
  ty = .Binary ∨ ty = .LargeBinary ∨ ty = .Utf8 ∨ ty = .LargeUtf8

/-- A VARCHAR column, what the worker accepts as rules. -/
def DataType.IsText (ty : DataType) : Prop := ty = .Utf8 ∨ ty = .LargeUtf8

theorem DataType.IsText.isBytes {ty : DataType} (h : ty.IsText) : ty.IsBytes := by
  rcases h with h | h
  · exact Or.inr (Or.inr (Or.inl h))
  · exact Or.inr (Or.inr (Or.inr h))

/-- A schema field. -/
structure Field where
  name : String
  dataType : DataType
  nullable : Bool
  deriving DecidableEq, Repr

/-- A schema is the list of its fields. -/
abbrev Schema := List Field

/-! ## Reading arrays -/

/-- The array accessors the worker uses. -/
structure ArrowArrays where
  ArrayRef : Type
  len : ArrayRef → ℕ
  dataType : ArrayRef → DataType
  /-- `Array::is_null`: the physical validity buffer. -/
  isNull : ArrayRef → ℕ → Bool
  /-- Whether the slot is NULL in SQL (`Array::logical_nulls`). -/
  isLogicalNull : ArrayRef → ℕ → Bool
  /-- `as_binary().value(row)`. -/
  binaryValue : ArrayRef → ℕ → List UInt8
  /-- `as_string().value(row)`. -/
  stringValue : ArrayRef → ℕ → String
  booleanValue : ArrayRef → ℕ → Bool
  int32Value : ArrayRef → ℕ → Int32
  int64Value : ArrayRef → ℕ → Int64
  /-- The child values of one list. -/
  listValue : ArrayRef → ℕ → ArrayRef
  /-- The `Debug` rendering of a data type. -/
  debug : DataType → String
  /-- A physically null slot is NULL. -/
  isLogicalNull_of_isNull : ∀ a i, isNull a i = true → isLogicalNull a i = true
  /-- BLOB and VARCHAR columns keep their NULLs in the validity buffer. -/
  isNull_of_isBytes : ∀ a i, (dataType a).IsBytes → isLogicalNull a i = true → isNull a i = true
  /-- A `Null` array has no validity buffer. -/
  isNull_null : ∀ a i, dataType a = .Null → isNull a i = false
  /-- Every slot of a `Null` array is NULL. -/
  isLogicalNull_null : ∀ a i, dataType a = .Null → i < len a → isLogicalNull a i = true

namespace ArrowArrays

variable (A : ArrowArrays) {α : Type}

/-- Read a whole column with one of the accessors; NULL slots are `none`. -/
def cells (value : A.ArrayRef → ℕ → α) (a : A.ArrayRef) : List (Option α) :=
  (List.range (A.len a)).map (fun i => if A.isNull a i then none else some (value a i))

/-- Read a column of lists of strings. -/
def listCells (a : A.ArrayRef) : List (Option (List (Option String))) :=
  A.cells (fun a i => A.cells A.stringValue (A.listValue a i)) a

@[simp] theorem length_cells (value : A.ArrayRef → ℕ → α) (a : A.ArrayRef) :
    (A.cells value a).length = A.len a := by
  rw [cells, List.length_map, List.length_range]

theorem getElem?_cells (value : A.ArrayRef → ℕ → α) (a : A.ArrayRef) {i : ℕ} (hi : i < A.len a) :
    (A.cells value a)[i]? = some (if A.isNull a i then none else some (value a i)) := by
  rw [cells, List.getElem?_map, List.getElem?_range hi, Option.map_some]

/-- A column reads back as `xs` when every slot does. -/
theorem cells_eq (value : A.ArrayRef → ℕ → α) (a : A.ArrayRef) (xs : List (Option α))
    (hlen : A.len a = xs.length)
    (hslot : ∀ i (hi : i < xs.length), (if A.isNull a i then none else some (value a i)) = xs[i]) :
    A.cells value a = xs := by
  refine List.ext_getElem (by rw [length_cells, hlen]) (fun i h₁ h₂ => ?_)
  have h := A.getElem?_cells value a (hlen ▸ h₂)
  rw [List.getElem?_eq_getElem h₁, Option.some.injEq] at h
  rw [h, hslot i h₂]

end ArrowArrays

/-! ## Column builders -/

/-- An append-only builder of a column of `α`. -/
structure Builder (ArrayRef α : Type) where
  State : Type
  new : State
  appendValue : State → α → Outcome State
  appendNull : State → State
  finish : State → ArrayRef
  /-- The cells appended so far. -/
  contents : State → List (Option α)

/-- What the documentation of a builder promises: `fits` is the capacity and
`holds a cells` says that the finished array `a` reads back as `cells`. -/
structure Builder.Lawful {ArrayRef α : Type} (B : Builder ArrayRef α)
    (fits : List (Option α) → Prop) (holds : ArrayRef → List (Option α) → Prop) : Prop where
  contents_new : B.contents B.new = []
  contents_appendNull : ∀ b, B.contents (B.appendNull b) = B.contents b ++ [none]
  appendValue_ok : ∀ b v, fits (B.contents b ++ [some v]) →
    ∃ b', B.appendValue b v = .ok b' ∧ B.contents b' = B.contents b ++ [some v]
  appendValue_panic : ∀ b v, ¬ fits (B.contents b ++ [some v]) →
    B.appendValue b v = .error .panic
  holds_finish : ∀ b, holds (B.finish b) (B.contents b)

/-- A `ListBuilder<StringBuilder>`: `valuesAppendValue` is
`values().append_value`, `appendTrue` is `append(true)`, which closes a list. -/
structure ListBuilder (ArrayRef : Type) where
  State : Type
  /-- `ListBuilder::new(StringBuilder::new()).with_field(field)`. -/
  new : Field → State
  valuesAppendValue : State → String → Outcome State
  appendTrue : State → Outcome State
  finish : State → ArrayRef
  /-- The lists closed so far. -/
  closed : State → List (List String)
  /-- The child values appended since the last list was closed. -/
  pending : State → List String
  field : State → Field

/-- The number of UTF-8 bytes in a list of strings. -/
def textLen (texts : List String) : ℕ := (texts.map String.utf8ByteSize).sum

/-- What the documentation of the list builder promises.  Text and child
positions are limited by the 32-bit offsets. -/
structure ListBuilder.Lawful {ArrayRef : Type} (B : ListBuilder ArrayRef)
    (holds : Field → ArrayRef → List (List String) → Prop) : Prop where
  closed_new : ∀ f, B.closed (B.new f) = []
  pending_new : ∀ f, B.pending (B.new f) = []
  field_new : ∀ f, B.field (B.new f) = f
  valuesAppendValue_ok : ∀ b s,
    textLen ((B.closed b).flatten ++ B.pending b ++ [s]) ≤ i32Max →
    ∃ b', B.valuesAppendValue b s = .ok b' ∧ B.closed b' = B.closed b
      ∧ B.pending b' = B.pending b ++ [s] ∧ B.field b' = B.field b
  appendTrue_ok : ∀ b, ((B.closed b).flatten ++ B.pending b).length ≤ i32Max →
    ∃ b', B.appendTrue b = .ok b' ∧ B.closed b' = B.closed b ++ [B.pending b]
      ∧ B.pending b' = [] ∧ B.field b' = B.field b
  holds_finish : ∀ b, holds (B.field b) (B.finish b) (B.closed b)

/-- The capacity of a string column: its text must not outgrow `i32::MAX`. -/
def FitsText (cells : List (Option String)) : Prop := textLen (cells.filterMap id) ≤ i32Max

instance : DecidablePred FitsText := fun _ => inferInstanceAs (Decidable (_ ≤ _))

/-- A column without offsets has no such limit. -/
def Unlimited {α : Type} (_ : List (Option α)) : Prop := True

/-! ## The interface -/

/-- `a` is a column of type `ty` that reads back as `cells`. -/
def ArrowArrays.Holds (A : ArrowArrays) {α : Type} (ty : DataType) (value : A.ArrayRef → ℕ → α)
    (a : A.ArrayRef) (cells : List (Option α)) : Prop :=
  A.dataType a = ty ∧ A.cells value a = cells

/-- `a` is a column of lists with item field `f` that reads back as `lists`. -/
def ArrowArrays.HoldsLists (A : ArrowArrays) (f : Field) (a : A.ArrayRef)
    (lists : List (List String)) : Prop :=
  A.dataType a = .List f.name f.dataType f.nullable
    ∧ A.listCells a = lists.map (fun texts => some (texts.map some))

/-- `RecordBatch::try_new` accepts columns of one length, at least one, whose
types are those of the schema, without nulls where a field allows none. -/
def ArrowArrays.Accepts (A : ArrowArrays) (schema : Schema) (columns : List A.ArrayRef)
    (rows : ℕ) : Prop :=
  columns ≠ [] ∧ List.Forall₂ (fun (f : Field) a => A.dataType a = f.dataType ∧ A.len a = rows
    ∧ (f.nullable = false → ∀ i < rows, A.isNull a i = false)) schema columns

/-- The part of the `arrow` crates the worker is built on. -/
structure Arrow extends ArrowArrays where
  booleanBuilder : Builder ArrayRef Bool
  int32Builder : Builder ArrayRef Int32
  int64Builder : Builder ArrayRef Int64
  stringBuilder : Builder ArrayRef String
  listBuilder : ListBuilder ArrayRef
  RecordBatch : Type
  numRows : RecordBatch → ℕ
  column : RecordBatch → ℕ → ArrayRef
  /-- `RecordBatch::try_new`, with the text of its error. -/
  tryNew : Schema → List ArrayRef → Except String RecordBatch
  boolean_lawful : booleanBuilder.Lawful Unlimited
    (toArrowArrays.Holds .Boolean toArrowArrays.booleanValue)
  int32_lawful : int32Builder.Lawful Unlimited
    (toArrowArrays.Holds .Int32 toArrowArrays.int32Value)
  int64_lawful : int64Builder.Lawful Unlimited
    (toArrowArrays.Holds .Int64 toArrowArrays.int64Value)
  string_lawful : stringBuilder.Lawful FitsText
    (toArrowArrays.Holds .Utf8 toArrowArrays.stringValue)
  list_lawful : listBuilder.Lawful toArrowArrays.HoldsLists
  tryNew_ok : ∀ schema columns rows, toArrowArrays.Accepts schema columns rows →
    ∃ b, tryNew schema columns = .ok b ∧ numRows b = rows
      ∧ ∀ i a, columns[i]? = some a → column b i = a

/-- Columns a schema takes have one length. -/
theorem ArrowArrays.Accepts.len_eq {A : ArrowArrays} {schema : Schema} {columns : List A.ArrayRef}
    {rows : ℕ} (h : A.Accepts schema columns rows) {a : A.ArrayRef} (ha : a ∈ columns) :
    A.len a = rows := by
  replace h := h.2
  induction h with
  | nil => exact absurd ha List.not_mem_nil
  | cons hc _ ih =>
      rcases List.mem_cons.mp ha with rfl | ha
      · exact hc.2.1
      · exact ih ha

/-! ## Columns of texts -/

@[simp] theorem textLen_append (xs ys : List String) :
    textLen (xs ++ ys) = textLen xs + textLen ys := by
  rw [textLen, textLen, textLen, List.map_append, List.sum_append]

theorem fitsText_map_some (texts : List String) :
    FitsText (texts.map some) ↔ textLen texts ≤ i32Max := by
  have hid : (texts.map some).filterMap id = texts := by
    rw [List.filterMap_map]
    exact List.filterMap_some
  rw [FitsText, hid]

namespace Arrow

variable {A : Arrow} {b : A.stringBuilder.State} {texts : List String}

/-- A string builder that holds `texts` takes one more that fits. -/
theorem string_appendValue_ok (h : A.stringBuilder.contents b = texts.map some) {s : String}
    (hfits : textLen (texts ++ [s]) ≤ i32Max) :
    ∃ b', A.stringBuilder.appendValue b s = .ok b'
      ∧ A.stringBuilder.contents b' = (texts ++ [s]).map some := by
  have hcells : A.stringBuilder.contents b ++ [some s] = (texts ++ [s]).map some := by
    rw [h, List.map_append, List.map_singleton]
  rw [← hcells]
  exact A.string_lawful.appendValue_ok b s (by rwa [hcells, fitsText_map_some])

/-- A string builder panics on a text that does not fit. -/
theorem string_appendValue_panic (h : A.stringBuilder.contents b = texts.map some) {s : String}
    (hfull : ¬ textLen (texts ++ [s]) ≤ i32Max) :
    A.stringBuilder.appendValue b s = .error .panic := by
  refine A.string_lawful.appendValue_panic b s (fun hfits => hfull ?_)
  rwa [h, ← List.map_singleton, ← List.map_append, fitsText_map_some] at hfits

/-- A finished string column that holds `texts`. -/
theorem string_finish (h : A.stringBuilder.contents b = texts.map some) :
    A.Holds .Utf8 A.stringValue (A.stringBuilder.finish b) (texts.map some) :=
  h ▸ A.string_lawful.holds_finish b

end Arrow

/-- A column without NULLs fills a field that allows none. -/
theorem ArrowArrays.column_of_cells (A : ArrowArrays) {α : Type} {value : A.ArrayRef → ℕ → α}
    {a : A.ArrayRef} {xs : List α} {f : Field} {rows : ℕ}
    (h : A.Holds f.dataType value a (xs.map some)) (hrows : xs.length = rows) :
    A.dataType a = f.dataType ∧ A.len a = rows
      ∧ (f.nullable = false → ∀ i < rows, A.isNull a i = false) := by
  obtain ⟨hty, hcells⟩ := h
  have hlen : A.len a = xs.length := by
    rw [← A.length_cells value, hcells, List.length_map]
  refine ⟨hty, hlen.trans hrows, fun _ i hi => ?_⟩
  rw [← hrows] at hi
  have hcell := A.getElem?_cells value a (hlen ▸ hi)
  rw [hcells, List.getElem?_map, List.getElem?_eq_getElem hi] at hcell
  -- a null slot would read back as `none`
  by_contra hnull
  rw [Bool.not_eq_false] at hnull
  rw [hnull] at hcell
  cases hcell

/-- A batch of accepted columns: its columns are the given ones, all of its length. -/
theorem Arrow.tryNew_of_accepts (A : Arrow) {schema : Schema} {columns : List A.ArrayRef} {rows : ℕ}
    (h : A.Accepts schema columns rows) :
    ∃ b, A.tryNew schema columns = .ok b ∧ A.numRows b = rows
      ∧ (∀ i a, columns[i]? = some a → A.column b i = a)
      ∧ ∀ i < columns.length, A.len (A.column b i) = rows := by
  obtain ⟨b, hb, hrows, hcolumn⟩ := A.tryNew_ok schema columns rows h
  refine ⟨b, hb, hrows, hcolumn, fun i hi => ?_⟩
  rw [hcolumn i _ (List.getElem?_eq_getElem hi)]
  exact h.len_eq (List.getElem_mem hi)

end YaraWorker
