/-
# What a batch is worth to a scan

A row counts by its operands alone: an operand that cannot be read, a NULL, or the first
`maxDataLen` bytes of the data and the source of the rules.  `scanInputs` lists these for
a batch, whatever its columns are made of, and the scan scalars refine the row-wise
operator `scanCell` on that list.

* `processKind_scanInputs` : the refinement;
* `processKind_storage` : the answer does not depend on how a batch is stored, nor on
  bytes behind the bound.
-/
import YaraWorker.BatchScan
import YaraWorker.RowWise

open Columnar FallibleRuns Utf8Bytes

namespace YaraWorker

/-! ## Rows of a scan -/

/-- The operands of a row, as far as a scan looks at them. -/
abbrev ScanInput := Outcome (Option (List UInt8 × String))

/-- What row `i` of a data column and a rules column is worth. -/
def scanInput (A : Arrow) (dataCol rulesCol : A.ArrayRef) (i : ℕ) : ScanInput :=
  Option.map (fun row => (row.1.take maxDataLen, row.2)) <$> operands A dataCol rulesCol i

/-- The rows of a batch. -/
def scanInputs (A : Arrow) (batch : A.RecordBatch) : List ScanInput :=
  (List.range (A.numRows batch)).map (scanInput A (A.column batch 0) (A.column batch 1))

/-- The cell of a row. -/
def scanCell (Y : YaraX) (kind : Kind) : ScanInput → Outcome Cell
  | .error e => .error e
  | .ok none => .ok .null
  | .ok (some (bytes, src)) =>
      (fun rules => kind.project (referenceScan Y rules bytes)) <$> compileOrError Y src

section Cells

variable {Y : YaraX} {kind : Kind} {bytes : List UInt8} {src : String}

theorem scanCell_of_ok {rules : Y.Rules} (h : compileOrError Y src = .ok rules) :
    scanCell Y kind (.ok (some (bytes, src))) = .ok (kind.project (referenceScan Y rules bytes)) := by
  rw [scanCell, h]
  rfl

theorem scanCell_of_error {e : Stop} (h : compileOrError Y src = .error e) :
    scanCell Y kind (.ok (some (bytes, src))) = .error e := by
  rw [scanCell, h]
  rfl

end Cells

theorem length_scanInputs (A : Arrow) (batch : A.RecordBatch) :
    (scanInputs A batch).length = A.numRows batch := by
  rw [scanInputs, List.length_map, List.length_range]

theorem getElem?_scanInputs {A : Arrow} {batch : A.RecordBatch} {i : ℕ}
    (hi : i < A.numRows batch) :
    (scanInputs A batch)[i]? = some (scanInput A (A.column batch 0) (A.column batch 1) i) := by
  rw [scanInputs, List.getElem?_map, List.getElem?_range hi]
  rfl

/-- A scan does not look behind the bound. -/
theorem referenceScan_take (Y : YaraX) (rules : Y.Rules) (bytes : List UInt8) :
    referenceScan Y rules (bytes.take maxDataLen) = referenceScan Y rules bytes := by
  rw [referenceScan, List.take_take, Nat.min_self]
  rfl

theorem referenceRow_eq_scanCell {A : Arrow} (Y : YaraX) (kind : Kind)
    (dataCol rulesCol : A.ArrayRef) (i : ℕ) :
    referenceRow A Y kind dataCol rulesCol i = scanCell Y kind (scanInput A dataCol rulesCol i) := by
  unfold scanInput
  rcases hoperands : operands A dataCol rulesCol i with e | _ | ⟨bytes, src⟩
  · exact referenceRow_of_error hoperands
  · exact referenceRow_of_null hoperands
  · rw [referenceRow_of_some hoperands]
    show _ = (fun rules => kind.project (referenceScan Y rules (bytes.take maxDataLen)))
      <$> compileOrError Y src
    simp only [referenceScan_take]

/-- A row of typed columns. -/
theorem scanInput_of_types {A : Arrow} {dataCol rulesCol : A.ArrayRef}
    (hdata : (A.dataType dataCol).IsBytes) (hrules : (A.dataType rulesCol).IsText) (i : ℕ) :
    scanInput A dataCol rulesCol i = .ok (if A.isNull dataCol i || A.isNull rulesCol i then none
      else some ((cellBytes A.toArrowArrays dataCol i).take maxDataLen,
        A.stringValue rulesCol i)) := by
  unfold scanInput operands
  cases hd : A.isNull dataCol i with
  | true =>
      rw [blobBytes_of_isNull hd]
      cases hr : A.isNull rulesCol i with
      | true => rw [textStr_of_isNull hr]; rfl
      | false => rw [textStr_of_isText hr hrules]; rfl
  | false =>
      rw [blobBytes_of_isBytes hd hdata]
      cases hr : A.isNull rulesCol i with
      | true => rw [textStr_of_isNull hr]; rfl
      | false => rw [textStr_of_isText hr hrules]; rfl

/-! ## The refinement -/

theorem fitsCells_rest {xs ys : List Cell} (h : FitsCells (xs ++ ys)) : FitsCells ys := by
  unfold FitsCells at h ⊢
  rw [List.map_append, List.sum_append] at h
  omega

theorem fitsCells_nil : FitsCells [] := Nat.zero_le _

section Refinement

variable {A : Arrow} {Y : YaraX} {V : Vgi} {kind : Kind} {params : ProcessParams}

/-- **The refinement.**  A scan scalar, with its one cache and its column builder, is the
row-wise operator `scanCell` into a buffer of the capacity of a string column. -/
theorem processKind_scanInputs (hschema : params.outputSchema = onBind V kind)
    (batch : A.RecordBatch) :
    Agree (IsOutput A kind) (processKind A Y kind params batch)
      (fill FitsCells .panic (scanCell Y kind) (scanInputs A batch)) := by
  have hrow : referenceRow A Y kind (A.column batch 0) (A.column batch 1)
      = fun i => scanCell Y kind (scanInput A (A.column batch 0) (A.column batch 1) i) :=
    funext (referenceRow_eq_scanCell Y kind _ _)
  rw [scanInputs, fill_map, ← hrow]
  exact processKind_agree V kind hschema batch

/-- A call that succeeds collects the cells of its rows, and they fit. -/
theorem scanCells_of_processKind (hschema : params.outputSchema = onBind V kind)
    {batch b : A.RecordBatch} (h : processKind A Y kind params batch = .ok b) :
    (scanInputs A batch).mapM (scanCell Y kind)
        = .ok (kind.decode A.toArrowArrays (A.column b 0))
      ∧ FitsCells (kind.decode A.toArrowArrays (A.column b 0)) := by
  have hagree := processKind_scanInputs hschema batch (Y := Y)
  rw [h] at hagree
  obtain ⟨cells, hcells, -, -, hdecode⟩ := hagree.exists_of_ok
  rw [hdecode]
  exact (fill_eq_ok_iff (fun _ _ => fitsCells_of_append) fitsCells_nil _ _).mp hcells

/-- A call whose rows all have cells: it returns them, or panics because they do not fit. -/
theorem processKind_of_scanCells (hschema : params.outputSchema = onBind V kind)
    {batch : A.RecordBatch} {cells : List Cell}
    (h : (scanInputs A batch).mapM (scanCell Y kind) = .ok cells) :
    Agree (IsOutput A kind) (processKind A Y kind params batch)
      (if FitsCells cells then .ok cells else .error .panic) := by
  have hagree := processKind_scanInputs hschema batch (Y := Y)
  rwa [fill_of_mapM_eq_ok (fun _ _ => fitsCells_of_append) fitsCells_nil h] at hagree

/-- Only `yara_first_rule` writes text. -/
theorem textLen_scanCell (hkind : kind ≠ .FirstRule) {x : ScanInput} {cell : Cell}
    (h : scanCell Y kind x = .ok cell) : cell.textLen = 0 := by
  rcases x with e | _ | ⟨bytes, src⟩
  · cases h
  · cases h
    rfl
  · cases hrules : compileOrError Y src with
    | error e =>
        rw [scanCell_of_error hrules] at h
        cases h
    | ok rules =>
        rw [scanCell_of_ok hrules] at h
        cases h
        cases kind with
        | Matches => rfl
        | FirstRule => exact absurd rfl hkind
        | MatchCount => rfl

/-- The other two scalars never run out of room. -/
theorem fitsCells_scanCells (hkind : kind ≠ .FirstRule) {xs : List ScanInput} {cells : List Cell}
    (h : xs.mapM (scanCell Y kind) = .ok cells) : FitsCells cells := by
  rw [mapM_eq_ok_iff] at h
  refine fitsCells_of_textLen ?_
  induction h with
  | nil =>
      intro c hc
      exact absurd hc List.not_mem_nil
  | cons hx _ ih =>
      rw [List.forall_mem_cons]
      exact ⟨textLen_scanCell hkind hx, ih⟩

end Refinement

/-! ## Storage -/

/-- Batches worth the same have the same answer. -/
theorem processKind_of_scanInputs {A A' : Arrow} {Y : YaraX} {V : Vgi} {kind : Kind}
    {params params' : ProcessParams} (hschema : params.outputSchema = onBind V kind)
    (hschema' : params'.outputSchema = onBind V kind) {batch : A.RecordBatch}
    {batch' : A'.RecordBatch} (h : scanInputs A batch = scanInputs A' batch') :
    Agree (fun b b' => A.numRows b = A'.numRows b'
        ∧ kind.decode A.toArrowArrays (A.column b 0) = kind.decode A'.toArrowArrays (A'.column b' 0))
      (processKind A Y kind params batch) (processKind A' Y kind params' batch') := by
  have hleft := processKind_scanInputs hschema batch (Y := Y)
  have hright := processKind_scanInputs hschema' batch' (Y := Y)
  rw [h] at hleft
  refine (hleft.common hright).mono ?_
  rintro b b' ⟨cells, ⟨hrows, -, hcells⟩, ⟨hrows', -, hcells'⟩⟩
  exact ⟨hrows.trans hrows'.symm, hcells.trans hcells'.symm⟩

/-- **Storage makes no difference.**  Take two batches of typed columns, possibly of two
Arrow implementations, in any of the four layouts of data and the two of rules, with the
same NULLs, the same sources and data that differs at most behind the first `maxDataLen`
bytes.  A scan scalar stops on both with the same error, or gives both the same cells. -/
theorem processKind_storage (A A' : Arrow) (Y : YaraX) (V : Vgi) (kind : Kind)
    (params params' : ProcessParams) (hschema : params.outputSchema = onBind V kind)
    (hschema' : params'.outputSchema = onBind V kind)
    (batch : A.RecordBatch) (batch' : A'.RecordBatch)
    (hdata : (A.dataType (A.column batch 0)).IsBytes)
    (hrules : (A.dataType (A.column batch 1)).IsText)
    (hdata' : (A'.dataType (A'.column batch' 0)).IsBytes)
    (hrules' : (A'.dataType (A'.column batch' 1)).IsText)
    (hrows : A.numRows batch = A'.numRows batch')
    (hnull : ∀ i < A.numRows batch,
      A.isNull (A.column batch 0) i = A'.isNull (A'.column batch' 0) i
        ∧ A.isNull (A.column batch 1) i = A'.isNull (A'.column batch' 1) i)
    (hbytes : ∀ i < A.numRows batch, A.isNull (A.column batch 0) i = false →
      (cellBytes A.toArrowArrays (A.column batch 0) i).take maxDataLen
        = (cellBytes A'.toArrowArrays (A'.column batch' 0) i).take maxDataLen)
    (hsrc : ∀ i < A.numRows batch, A.isNull (A.column batch 1) i = false →
      A.stringValue (A.column batch 1) i = A'.stringValue (A'.column batch' 1) i) :
    Agree (fun b b' => A.numRows b = A'.numRows b'
        ∧ kind.decode A.toArrowArrays (A.column b 0) = kind.decode A'.toArrowArrays (A'.column b' 0))
      (processKind A Y kind params batch) (processKind A' Y kind params' batch') := by
  refine processKind_of_scanInputs hschema hschema' ?_
  rw [scanInputs, scanInputs, ← hrows]
  refine List.map_congr_left (fun i hi => ?_)
  rw [List.mem_range] at hi
  rw [scanInput_of_types hdata hrules, scanInput_of_types hdata' hrules', ← (hnull i hi).1,
    ← (hnull i hi).2]
  by_cases hboth : A.isNull (A.column batch 0) i || A.isNull (A.column batch 1) i
  · rw [if_pos hboth, if_pos hboth]
  · rw [if_neg hboth, if_neg hboth]
    rw [Bool.or_eq_true, not_or, Bool.not_eq_true, Bool.not_eq_true] at hboth
    rw [hbytes i hi hboth.1, hsrc i hi hboth.2]

/-- Two rows of data in a BLOB column. -/
def blobForm : Batch :=
  ⟨[], [blobColumn .Binary [some [109, 97], none], textColumn .Utf8 [some "r", some "r"]], 2⟩

/-- The same rows in a large VARCHAR column. -/
def textForm : Batch :=
  ⟨[], [textColumn .LargeUtf8 [some "ma", none], textColumn .LargeUtf8 [some "r", some "r"]], 2⟩

theorem processKind_storage_forms :
    Agree (fun b b' => columnar.numRows b = columnar.numRows b'
        ∧ Kind.MatchCount.decode columnar.toArrowArrays (columnar.column b 0)
          = Kind.MatchCount.decode columnar.toArrowArrays (columnar.column b' 0))
      (processKind columnar echo .MatchCount (.ofSchema (onBind .named .MatchCount)) blobForm)
      (processKind columnar echo .MatchCount (.ofSchema (onBind .named .MatchCount)) textForm) := by
  have hnull : ∀ i < 2, columnar.isNull (columnar.column blobForm 0) i
        = columnar.isNull (columnar.column textForm 0) i
      ∧ columnar.isNull (columnar.column blobForm 1) i
        = columnar.isNull (columnar.column textForm 1) i := by decide
  have hbytes : ∀ i < 2, columnar.isNull (columnar.column blobForm 0) i = false →
      cellBytes columnar.toArrowArrays (columnar.column blobForm 0) i
        = cellBytes columnar.toArrowArrays (columnar.column textForm 0) i := by decide
  have hsrc : ∀ i < 2, columnar.isNull (columnar.column blobForm 1) i = false →
      columnar.stringValue (columnar.column blobForm 1) i
        = columnar.stringValue (columnar.column textForm 1) i := by decide
  exact processKind_storage columnar columnar echo .named .MatchCount _ _ rfl rfl blobForm textForm
    (.inl rfl) (.inl rfl) (.inr (.inr (.inr rfl))) (.inr rfl) rfl hnull
    (fun i hi h => congrArg (List.take maxDataLen) (hbytes i hi h)) hsrc

end YaraWorker
