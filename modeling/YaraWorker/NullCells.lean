/-
# NULL cells and the validity buffer

The readers decide on NULL by the physical validity buffer alone, while SQL's NULLs
are logical.  The two notions differ on columns without a validity buffer of their
own, such as those of type `Null`.

* `processRow_null_iff`, `YaraCheck.processRow_null_iff` : one row;
* `nullOut_iff` : a row with a NULL operand is NULL in the output exactly when the
  validity buffers mark its NULLs.
-/
import YaraWorker.BatchScan
import YaraWorker.Check

open Columnar

namespace YaraWorker

/-! ## Marked NULLs -/

/-- If the slot is NULL, the validity buffer says so. -/
def ArrowArrays.Marks (A : ArrowArrays) (col : A.ArrayRef) (i : ℕ) : Prop :=
  A.isLogicalNull col i = true → A.isNull col i = true

section Marks

variable {A : Arrow} {dataCol rulesCol col : A.ArrayRef} {i : ℕ}

/-- BLOB and VARCHAR columns mark their NULLs. -/
theorem marks_of_isBytes (h : (A.dataType col).IsBytes) : A.Marks col i :=
  A.isNull_of_isBytes col i h

/-- A `Null` column marks none of its NULLs. -/
theorem not_marks_of_null (h : A.dataType col = .Null) (hi : i < A.len col) : ¬ A.Marks col i := by
  intro hmarks
  have hnull := hmarks (A.isLogicalNull_null col i h hi)
  rw [A.isNull_null col i h] at hnull
  cases hnull

/-- The data reader fails on a NULL the buffer does not mark. -/
theorem blobBytes_of_not_marks (h : ¬ A.Marks col i) : ∃ e, blobBytes A col i = .error e := by
  have hnull : A.isNull col i = false := by
    by_contra hnull
    exact h (fun _ => by rwa [Bool.not_eq_false] at hnull)
  exact ⟨_, blobBytes_of_not_isBytes hnull (fun hty => h (marks_of_isBytes hty))⟩

/-- The rules reader fails on a NULL the buffer does not mark. -/
theorem textStr_of_not_marks (h : ¬ A.Marks col i) : ∃ e, textStr A col i = .error e := by
  have hnull : A.isNull col i = false := by
    by_contra hnull
    exact h (fun _ => by rwa [Bool.not_eq_false] at hnull)
  exact ⟨_, textStr_of_not_isText hnull (fun hty => h (marks_of_isBytes hty.isBytes))⟩

/-- A marked cell of a supported type, or a marked NULL, can be read; a NULL reads as
`none`. -/
theorem blobBytes_of_marks (h : A.Marks col i)
    (hty : A.isLogicalNull col i = true ∨ (A.dataType col).IsBytes) :
    ∃ data, blobBytes A col i = .ok data ∧ (A.isLogicalNull col i = true → data = none) := by
  rcases hnull : A.isNull col i with _ | _
  · have hvalid : A.isLogicalNull col i ≠ true := by
      intro hlogical
      rw [h hlogical] at hnull
      cases hnull
    rcases hty with hty | hty
    · exact absurd hty hvalid
    · exact ⟨_, blobBytes_of_isBytes hnull hty, fun hlogical => absurd hlogical hvalid⟩
  · exact ⟨none, blobBytes_of_isNull hnull, fun _ => rfl⟩

theorem textStr_of_marks (h : A.Marks col i)
    (hty : A.isLogicalNull col i = true ∨ (A.dataType col).IsText) :
    ∃ src, textStr A col i = .ok src ∧ (A.isLogicalNull col i = true → src = none) := by
  rcases hnull : A.isNull col i with _ | _
  · have hvalid : A.isLogicalNull col i ≠ true := by
      intro hlogical
      rw [h hlogical] at hnull
      cases hnull
    rcases hty with hty | hty
    · exact absurd hty hvalid
    · exact ⟨_, textStr_of_isText hnull hty, fun hlogical => absurd hlogical hvalid⟩
  · exact ⟨none, textStr_of_isNull hnull, fun _ => rfl⟩

/-! ## One row -/

/-- A row with a NULL operand: the other one is NULL or of a supported type. -/
def NullRow (A : ArrowArrays) (dataCol rulesCol : A.ArrayRef) (i : ℕ) : Prop :=
  (A.isLogicalNull dataCol i = true
      ∧ (A.isLogicalNull rulesCol i = true ∨ (A.dataType rulesCol).IsText))
    ∨ (A.isLogicalNull rulesCol i = true
      ∧ (A.isLogicalNull dataCol i = true ∨ (A.dataType dataCol).IsBytes))

/-- A row with a NULL operand whose NULLs are marked has no operands. -/
theorem operands_of_marks (hrow : NullRow A.toArrowArrays dataCol rulesCol i)
    (hdata : A.Marks dataCol i) (hrules : A.Marks rulesCol i) :
    operands A dataCol rulesCol i = .ok none := by
  have hdataTy : A.isLogicalNull dataCol i = true ∨ (A.dataType dataCol).IsBytes := by
    rcases hrow with ⟨h, _⟩ | ⟨_, h⟩
    · exact Or.inl h
    · exact h
  have hrulesTy : A.isLogicalNull rulesCol i = true ∨ (A.dataType rulesCol).IsText := by
    rcases hrow with ⟨_, h⟩ | ⟨h, _⟩
    · exact h
    · exact Or.inl h
  obtain ⟨data, hread, hnone⟩ := blobBytes_of_marks hdata hdataTy
  obtain ⟨src, hreadSrc, hnoneSrc⟩ := textStr_of_marks hrules hrulesTy
  refine operands_of_none hread hreadSrc ?_
  rcases hrow with ⟨h, _⟩ | ⟨h, _⟩
  · exact Or.inl (hnone h)
  · exact Or.inr (hnoneSrc h)

/-- A row with an unmarked NULL cannot be read. -/
theorem operands_of_not_marks (h : ¬ (A.Marks dataCol i ∧ A.Marks rulesCol i)) :
    ∃ e, operands A dataCol rulesCol i = .error e := by
  unfold operands
  by_cases hdata : A.Marks dataCol i
  · have hrules : ¬ A.Marks rulesCol i := fun hrules => h ⟨hdata, hrules⟩
    obtain ⟨e, he⟩ := textStr_of_not_marks hrules
    rw [he]
    -- the data is read first, so an error of its own wins
    rcases blobBytes A dataCol i with e' | data
    · exact ⟨e', rfl⟩
    · exact ⟨e, rfl⟩
  · obtain ⟨e, he⟩ := blobBytes_of_not_marks hdata
    rw [he]
    exact ⟨e, rfl⟩

variable {Y : YaraX}

/-- **One row of a scan.**  The loop body takes a row with a NULL operand, whatever
the rows before it left, exactly when the NULLs of the row are marked. -/
theorem processRow_null_iff (hrow : NullRow A.toArrowArrays dataCol rulesCol i) :
    (∀ state, ∃ state', processRow A Y dataCol rulesCol state i = .ok state')
      ↔ A.Marks dataCol i ∧ A.Marks rulesCol i := by
  constructor
  · intro h
    by_contra hunmarked
    obtain ⟨e, he⟩ := operands_of_not_marks hunmarked
    obtain ⟨state', hstate'⟩ := h (RuleCache.default, Out.new A .Matches)
    rw [processRow_eq, he] at hstate'
    cases hstate'
  · rintro ⟨hdata, hrules⟩ ⟨cache, out⟩
    rw [processRow_eq, operands_of_marks hrow hdata hrules]
    exact ⟨_, rfl⟩

/-- **One row of a validation.** -/
theorem YaraCheck.processRow_null_iff (hnull : A.isLogicalNull col i = true) :
    (∀ out, ∃ out', YaraCheck.processRow A Y col out i = .ok out') ↔ A.isNull col i = true := by
  constructor
  · intro h
    by_contra hunmarked
    obtain ⟨e, he⟩ := textStr_of_not_marks (A := A) (fun h => hunmarked (h hnull))
    obtain ⟨out', hout'⟩ := h A.booleanBuilder.new
    unfold YaraCheck.processRow at hout'
    rw [he] at hout'
    cases hout'
  · intro h out
    unfold YaraCheck.processRow
    rw [textStr_of_isNull h]
    exact ⟨_, rfl⟩

end Marks

/-! ## Whole calls -/

/-- The row is no reason for `process_kind` to fail, and is NULL in the output. -/
def NullOut (A : Arrow) (Y : YaraX) (kind : Kind) (params : ProcessParams) (batch : A.RecordBatch)
    (i : ℕ) : Prop :=
  (∀ state, ∃ state', processRow A Y (A.column batch 0) (A.column batch 1) state i = .ok state')
    ∧ ∀ b, processKind A Y kind params batch = .ok b →
        (kind.decode A.toArrowArrays (A.column b 0))[i]? = some .null

/-- The row is no reason for `yara_check` to fail, and is NULL in the output. -/
def YaraCheck.NullOut (A : Arrow) (Y : YaraX) (params : ProcessParams) (batch : A.RecordBatch)
    (i : ℕ) : Prop :=
  (∀ out, ∃ out', YaraCheck.processRow A Y (A.column batch 0) out i = .ok out')
    ∧ ∀ b, YaraCheck.process A Y params batch = .ok b →
        (A.cells A.booleanValue (A.column b 0))[i]? = some none

/-- **NULL in, NULL out** holds of a row exactly when the validity buffers mark the
NULLs of the row. -/
theorem nullOut_iff (A : Arrow) (Y : YaraX) (V : Vgi) (batch : A.RecordBatch) (i : ℕ)
    (hi : i < A.numRows batch) :
    (∀ kind params, params.outputSchema = onBind V kind →
      NullRow A.toArrowArrays (A.column batch 0) (A.column batch 1) i →
      (NullOut A Y kind params batch i
        ↔ A.Marks (A.column batch 0) i ∧ A.Marks (A.column batch 1) i))
    ∧ ∀ params, params.outputSchema = YaraCheck.onBind V →
      A.isLogicalNull (A.column batch 0) i = true →
      (YaraCheck.NullOut A Y params batch i ↔ A.isNull (A.column batch 0) i = true) := by
  constructor
  · intro kind params hschema hrow
    refine ⟨fun h => (processRow_null_iff hrow).mp h.1, fun hmarks => ?_⟩
    refine ⟨(processRow_null_iff hrow).mpr hmarks, fun b hb => ?_⟩
    obtain ⟨cell, hget, hcell⟩ := getElem?_processKind hschema hb hi
    rw [referenceRow_of_null (operands_of_marks hrow hmarks.1 hmarks.2)] at hcell
    cases hcell
    exact hget
  · intro params hschema hnull
    refine ⟨fun h => (YaraCheck.processRow_null_iff hnull).mp h.1, fun hmarked => ?_⟩
    refine ⟨(YaraCheck.processRow_null_iff hnull).mpr hmarked, fun b hb => ?_⟩
    obtain ⟨cell, hget, hcell⟩ := YaraCheck.getElem?_process hschema hb hi
    rw [YaraCheck.checkRow_of_isNull hmarked] at hcell
    cases hcell
    exact hget

/-- VARCHAR columns with a NULL in each. -/
theorem nullOut_iff_marked :
    NullOut columnar echo .Matches (.ofSchema (onBind .named .Matches))
        ⟨[], [textColumn .Utf8 [none, some "a"], textColumn .Utf8 [some "r", none]], 2⟩ 0
      ∧ YaraCheck.NullOut columnar echo (.ofSchema (YaraCheck.onBind .named))
        ⟨[], [textColumn .Utf8 [none, some "a"], textColumn .Utf8 [some "r", none]], 2⟩ 0 := by
  obtain ⟨hscalar, hcheck⟩ := nullOut_iff columnar echo .named
    ⟨[], [textColumn .Utf8 [none, some "a"], textColumn .Utf8 [some "r", none]], 2⟩ 0 Nat.two_pos
  have hdata : columnar.Marks (textColumn .Utf8 [none, some "a"]) 0 :=
    marks_of_isBytes (Or.inr (Or.inr (Or.inl rfl)))
  have hrules : columnar.Marks (textColumn .Utf8 [some "r", none]) 0 :=
    marks_of_isBytes (Or.inr (Or.inr (Or.inl rfl)))
  exact ⟨(hscalar .Matches _ rfl (Or.inl ⟨rfl, Or.inr (Or.inl rfl)⟩)).mpr ⟨hdata, hrules⟩,
    (hcheck _ rfl rfl).mpr rfl⟩

/-! ## A column of type `Null` -/

/-- `NULL` without a type, next to a source. -/
def untypedNull : Batch := ⟨[], [.null 1, textColumn .Utf8 [some "r"]], 1⟩

/-- **An untyped NULL is an error** to the scans and to `yara_check`. -/
theorem untypedNull_fails :
    (NullRow columnar.toArrowArrays (columnar.column untypedNull 0)
        (columnar.column untypedNull 1) 0
      ∧ processKind columnar echo .Matches (.ofSchema (onBind .named .Matches)) untypedNull
        = .error (.error (.valueError ("expected a BLOB/VARCHAR argument, got " ++ "Null")))
      ∧ ¬ NullOut columnar echo .Matches (.ofSchema (onBind .named .Matches)) untypedNull 0)
    ∧ columnar.isLogicalNull (columnar.column untypedNull 0) 0 = true
    ∧ YaraCheck.process columnar echo (.ofSchema (YaraCheck.onBind .named)) untypedNull
        = .error (.error (.valueError ("expected a VARCHAR argument, got " ++ "Null")))
    ∧ ¬ YaraCheck.NullOut columnar echo (.ofSchema (YaraCheck.onBind .named)) untypedNull 0 := by
  have hrow : NullRow columnar.toArrowArrays (columnar.column untypedNull 0)
      (columnar.column untypedNull 1) 0 := Or.inl ⟨rfl, Or.inr (Or.inl rfl)⟩
  have hmarks : ¬ columnar.Marks (columnar.column untypedNull 0) 0 :=
    not_marks_of_null (A := columnar) rfl Nat.one_pos
  refine ⟨⟨hrow, rfl, fun h => ?_⟩, rfl, rfl, fun h => ?_⟩
  · exact hmarks ((processRow_null_iff hrow).mp h.1).1
  · exact hmarks (fun _ => (YaraCheck.processRow_null_iff rfl).mp h.1)

end YaraWorker
