/-
# Reading cells and building the tag column (`arrow_io.rs`)

`blobBytes` and `textStr` read one input cell.  Both look at the physical validity
buffer first and at the column type second: a slot the buffer marks is NULL
whatever the type, and any other slot of a type they do not know is an error.
-/
import YaraWorker.Columnar

open Columnar Utf8Bytes

namespace YaraWorker

variable (A : Arrow)

/-! ## The readers -/

/-- The bytes of a BLOB or VARCHAR cell. -/
def blobBytes (col : A.ArrayRef) (row : ℕ) : Outcome (Option (List UInt8)) :=
  if A.isNull col row then .ok none
  else match A.dataType col with
    | .Binary => .ok (some (A.binaryValue col row))
    | .LargeBinary => .ok (some (A.binaryValue col row))
    | .Utf8 => .ok (some (textBytes (A.stringValue col row)))
    | .LargeUtf8 => .ok (some (textBytes (A.stringValue col row)))
    | other => .error (.error (.valueError
        ("expected a BLOB/VARCHAR argument, got " ++ A.debug other)))

/-- The text of a VARCHAR cell. -/
def textStr (col : A.ArrayRef) (row : ℕ) : Outcome (Option String) :=
  if A.isNull col row then .ok none
  else match A.dataType col with
    | .Utf8 => .ok (some (A.stringValue col row))
    | .LargeUtf8 => .ok (some (A.stringValue col row))
    | other => .error (.error (.valueError
        ("expected a VARCHAR argument, got " ++ A.debug other)))

/-- The `LIST(VARCHAR)` type of the `tags` column. -/
def listVarcharType : DataType := .List "item" .Utf8 true

/-- A fresh builder of the `tags` column. -/
def listVarcharBuilder : A.listBuilder.State := A.listBuilder.new ⟨"item", .Utf8, true⟩

/-! ## What the readers return -/

variable {A}

theorem blobBytes_of_isNull {col : A.ArrayRef} {row : ℕ} (h : A.isNull col row = true) :
    blobBytes A col row = .ok none := by
  rw [blobBytes, if_pos h]

theorem textStr_of_isNull {col : A.ArrayRef} {row : ℕ} (h : A.isNull col row = true) :
    textStr A col row = .ok none := by
  rw [textStr, if_pos h]

/-- What a BLOB or VARCHAR column stores in a slot, as bytes. -/
def cellBytes (A : ArrowArrays) (col : A.ArrayRef) (row : ℕ) : List UInt8 :=
  match A.dataType col with
  | .Utf8 => textBytes (A.stringValue col row)
  | .LargeUtf8 => textBytes (A.stringValue col row)
  | _ => A.binaryValue col row

/-- A BLOB or VARCHAR column gives its bytes for every slot its buffer does not
mark. -/
theorem blobBytes_of_isBytes {col : A.ArrayRef} {row : ℕ} (h : A.isNull col row = false)
    (hty : (A.dataType col).IsBytes) :
    blobBytes A col row = .ok (some (cellBytes A.toArrowArrays col row)) := by
  unfold blobBytes cellBytes
  rw [h]
  rcases hty with hty | hty | hty | hty <;> rw [hty] <;> rfl

/-- A VARCHAR column gives text for every slot its buffer does not mark. -/
theorem textStr_of_isText {col : A.ArrayRef} {row : ℕ} (h : A.isNull col row = false)
    (hty : (A.dataType col).IsText) : textStr A col row = .ok (some (A.stringValue col row)) := by
  unfold textStr
  rw [h]
  rcases hty with hty | hty <;> rw [hty] <;> rfl

/-- An unmarked slot of any other type is an error that names the type. -/
theorem blobBytes_of_not_isBytes {col : A.ArrayRef} {row : ℕ} (h : A.isNull col row = false)
    (hty : ¬ (A.dataType col).IsBytes) :
    blobBytes A col row = .error (.error (.valueError
      ("expected a BLOB/VARCHAR argument, got " ++ A.debug (A.dataType col)))) := by
  unfold blobBytes
  rw [h]
  unfold DataType.IsBytes at hty
  cases hcol : A.dataType col <;> simp_all

theorem textStr_of_not_isText {col : A.ArrayRef} {row : ℕ} (h : A.isNull col row = false)
    (hty : ¬ (A.dataType col).IsText) :
    textStr A col row = .error (.error (.valueError
      ("expected a VARCHAR argument, got " ++ A.debug (A.dataType col)))) := by
  unfold textStr
  rw [h]
  unfold DataType.IsText at hty
  cases hcol : A.dataType col <;> simp_all

/-- A reader's three outcomes, by the buffer and the type. -/
theorem blobBytes_eq_ok_iff {col : A.ArrayRef} {row : ℕ} {o : Option (List UInt8)} :
    blobBytes A col row = .ok o ↔ (A.isNull col row = true ∧ o = none)
      ∨ (A.isNull col row = false ∧ (A.dataType col).IsBytes
          ∧ o = some (cellBytes A.toArrowArrays col row)) := by
  rcases hnull : A.isNull col row with _ | _
  · by_cases hty : (A.dataType col).IsBytes
    · rw [blobBytes_of_isBytes hnull hty]
      simp [hty, eq_comm]
    · rw [blobBytes_of_not_isBytes hnull hty]
      simp [hty]
  · rw [blobBytes_of_isNull hnull]
    simp [eq_comm]

theorem textStr_eq_ok_iff {col : A.ArrayRef} {row : ℕ} {o : Option String} :
    textStr A col row = .ok o ↔ (A.isNull col row = true ∧ o = none)
      ∨ (A.isNull col row = false ∧ (A.dataType col).IsText
          ∧ o = some (A.stringValue col row)) := by
  rcases hnull : A.isNull col row with _ | _
  · by_cases hty : (A.dataType col).IsText
    · rw [textStr_of_isText hnull hty]
      simp [hty, eq_comm]
    · rw [textStr_of_not_isText hnull hty]
      simp [hty]
  · rw [textStr_of_isNull hnull]
    simp [eq_comm]

/-! ## Columns of given cells -/

/-- A BLOB column reads back its cells. -/
theorem blobBytes_blobColumn {ty : VarType} (hty : ty = .Binary ∨ ty = .LargeBinary)
    (cells : List (Option (List UInt8))) {i : ℕ} (hi : i < cells.length) :
    blobBytes columnar (blobColumn ty cells) i = .ok cells[i] := by
  have hnull : columnar.isNull (blobColumn ty cells) i = cells[i].isNone :=
    isNull_blobColumn ty cells hi
  have hvalue : columnar.binaryValue (blobColumn ty cells) i = cells[i].getD [] :=
    binaryValue_blobColumn ty cells hi
  unfold blobBytes
  rw [hnull]
  cases hcell : cells[i] with
  | none => rfl
  | some bytes =>
      rw [hcell] at hvalue
      rcases hty with rfl | rfl
      · exact congrArg (fun v => Except.ok (some v)) hvalue
      · exact congrArg (fun v => Except.ok (some v)) hvalue

/-- A VARCHAR column reads back its cells. -/
theorem textStr_textColumn {ty : VarType} (hty : ty = .Utf8 ∨ ty = .LargeUtf8)
    (cells : List (Option String)) {i : ℕ} (hi : i < cells.length) :
    textStr columnar (textColumn ty cells) i = .ok cells[i] := by
  have hnull : columnar.isNull (textColumn ty cells) i = cells[i].isNone :=
    isNull_textColumn ty cells hi
  have hvalue : columnar.stringValue (textColumn ty cells) i = cells[i].getD "" :=
    stringValue_textColumn ty cells hi
  unfold textStr
  rw [hnull]
  cases hcell : cells[i] with
  | none => rfl
  | some s =>
      rw [hcell] at hvalue
      rcases hty with rfl | rfl
      · exact congrArg (fun v => Except.ok (some v)) hvalue
      · exact congrArg (fun v => Except.ok (some v)) hvalue

end YaraWorker
