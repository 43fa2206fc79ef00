/-
# Rows without a cell

`RowFails` lists the reasons for which a row has no cell, with the errors they are reported
as.  From it and from the text of the identifiers `yara_first_rule` writes follows every
outcome of a call of a scan scalar.

* `referenceRow_eq_error_iff` : there are no other reasons;
* `fitsCells_iff_firstRulesFit` : when there is room for the cells of the first rows;
* `processKind_reports_iff`, `processKind_panics_iff`, `processKind_succeeds_iff` : the
  outcomes of a call.
-/
import YaraWorker.LogicalRows

open FallibleRuns

namespace YaraWorker

/-! ## Rows with both operands -/

/-- Both operands of row `i` are there. -/
def BothPresent (A : ArrowArrays) (dataCol rulesCol : A.ArrayRef) (i : ℕ) : Prop :=
  A.isNull dataCol i = false ∧ A.isNull rulesCol i = false

section Rows

variable {A : Arrow} {Y : YaraX} {kind : Kind} {dataCol rulesCol : A.ArrayRef} {i : ℕ}

theorem referenceRow_of_present (hdata : (A.dataType dataCol).IsBytes)
    (hrules : (A.dataType rulesCol).IsText)
    (h : BothPresent A.toArrowArrays dataCol rulesCol i) :
    referenceRow A Y kind dataCol rulesCol i
      = (fun rules => kind.project (scanRules Y rules (cellBytes A.toArrowArrays dataCol i)))
          <$> compileOrError Y (A.stringValue rulesCol i) := by
  have hoperands := operands_of_ok (blobBytes_of_isBytes h.1 hdata) (textStr_of_isText h.2 hrules)
  rw [referenceRow_of_some hoperands]
  simp only [scanRules_eq_referenceScan]

theorem referenceRow_of_absent (hdata : (A.dataType dataCol).IsBytes)
    (hrules : (A.dataType rulesCol).IsText)
    (h : ¬ BothPresent A.toArrowArrays dataCol rulesCol i) :
    referenceRow A Y kind dataCol rulesCol i = .ok .null := by
  refine referenceRow_of_null ?_
  rcases hd : A.isNull dataCol i with _ | _
  · rcases hr : A.isNull rulesCol i with _ | _
    · exact absurd ⟨hd, hr⟩ h
    · exact operands_of_none (blobBytes_of_isBytes hd hdata) (textStr_of_isNull hr) (Or.inr rfl)
  · rcases hr : A.isNull rulesCol i with _ | _
    · exact operands_of_none (blobBytes_of_isNull hd) (textStr_of_isText hr hrules) (Or.inl rfl)
    · exact operands_of_none (blobBytes_of_isNull hd) (textStr_of_isNull hr) (Or.inl rfl)

/-! ## Why a row has no cell -/

/-- Row `i` has no cell, and this is the error. -/
inductive RowFails (A : Arrow) (Y : YaraX) (dataCol rulesCol : A.ArrayRef) (i : ℕ) :
    RpcError → Prop
  /-- The data is neither NULL nor a BLOB or VARCHAR. -/
  | data : A.isNull dataCol i = false → ¬ (A.dataType dataCol).IsBytes →
      RowFails A Y dataCol rulesCol i
        (.valueError ("expected a BLOB/VARCHAR argument, got " ++ A.debug (A.dataType dataCol)))
  /-- The data can be read, and the rules are neither NULL nor a VARCHAR. -/
  | rules : (A.isNull dataCol i = true ∨ (A.dataType dataCol).IsBytes) →
      A.isNull rulesCol i = false → ¬ (A.dataType rulesCol).IsText →
      RowFails A Y dataCol rulesCol i
        (.valueError ("expected a VARCHAR argument, got " ++ A.debug (A.dataType rulesCol)))
  /-- Both operands are there, and the source does not compile. -/
  | source {d : Y.CompileError} : A.isNull dataCol i = false → (A.dataType dataCol).IsBytes →
      A.isNull rulesCol i = false → (A.dataType rulesCol).IsText →
      Y.addSource Y.new (A.stringValue rulesCol i) = .error d →
      RowFails A Y dataCol rulesCol i (.valueError ("invalid YARA rule: " ++ Y.display d))

/-- What a source that does not compile is reported as. -/
theorem compileOrError_eq_error_iff (Y : YaraX) (src : String) (s : Stop) :
    compileOrError Y src = .error s
      ↔ ∃ d, Y.addSource Y.new src = .error d
          ∧ s = .error (.valueError ("invalid YARA rule: " ++ Y.display d)) := by
  unfold compileOrError compileRules
  cases Y.addSource Y.new src with
  | error d =>
      show Except.error (Stop.error (.valueError ("invalid YARA rule: " ++ Y.display d)))
        = Except.error s ↔ _
      simp [eq_comm]
  | ok compiler =>
      show Except.ok (Y.build compiler) = Except.error s ↔ _
      simp

/-- A data cell that cannot be read. -/
theorem blobBytes_eq_error_iff {s : Stop} :
    blobBytes A dataCol i = .error s
      ↔ A.isNull dataCol i = false ∧ ¬ (A.dataType dataCol).IsBytes
        ∧ s = .error (.valueError
          ("expected a BLOB/VARCHAR argument, got " ++ A.debug (A.dataType dataCol))) := by
  rcases hnull : A.isNull dataCol i with _ | _
  · by_cases hty : (A.dataType dataCol).IsBytes
    · rw [blobBytes_of_isBytes hnull hty]
      simp [hty]
    · rw [blobBytes_of_not_isBytes hnull hty]
      simp [hty, eq_comm]
  · rw [blobBytes_of_isNull hnull]
    simp

/-- A rules cell that cannot be read. -/
theorem textStr_eq_error_iff {s : Stop} :
    textStr A rulesCol i = .error s
      ↔ A.isNull rulesCol i = false ∧ ¬ (A.dataType rulesCol).IsText
        ∧ s = .error (.valueError
          ("expected a VARCHAR argument, got " ++ A.debug (A.dataType rulesCol))) := by
  rcases hnull : A.isNull rulesCol i with _ | _
  · by_cases hty : (A.dataType rulesCol).IsText
    · rw [textStr_of_isText hnull hty]
      simp [hty]
    · rw [textStr_of_not_isText hnull hty]
      simp [hty, eq_comm]
  · rw [textStr_of_isNull hnull]
    simp

/-- Operands that cannot be read. -/
theorem operands_eq_error_iff {s : Stop} :
    operands A dataCol rulesCol i = .error s
      ↔ blobBytes A dataCol i = .error s
        ∨ ∃ data, blobBytes A dataCol i = .ok data ∧ textStr A rulesCol i = .error s := by
  unfold operands
  rcases blobBytes A dataCol i with e | data
  · show Except.error e = Except.error s ↔ _
    simp
  · rcases textStr A rulesCol i with e | src
    · show Except.error e = Except.error s ↔ _
      simp
    · show Except.ok _ = Except.error s ↔ _
      simp

/-- A row with both operands, of columns that can be read. -/
theorem operands_eq_some {row : List UInt8 × String}
    (h : operands A dataCol rulesCol i = .ok (some row)) :
    BothPresent A.toArrowArrays dataCol rulesCol i ∧ (A.dataType dataCol).IsBytes
      ∧ (A.dataType rulesCol).IsText := by
  obtain ⟨data, src, hdata, hsrc, hrow⟩ := operands_eq_ok_iff.mp h
  rw [blobBytes_eq_ok_iff] at hdata
  rw [textStr_eq_ok_iff] at hsrc
  rcases hdata with ⟨-, rfl⟩ | ⟨hdata, hbytes, rfl⟩
  · cases hrow
  · rcases hsrc with ⟨-, rfl⟩ | ⟨hsrc, htext, rfl⟩
    · cases hrow
    · exact ⟨⟨hdata, hsrc⟩, hbytes, htext⟩

/-- **A row without a cell** fails for one of the three reasons. -/
theorem referenceRow_eq_error_iff {s : Stop} :
    referenceRow A Y kind dataCol rulesCol i = .error s
      ↔ ∃ e, s = .error e ∧ RowFails A Y dataCol rulesCol i e := by
  constructor
  · intro h
    rcases hoperands : operands A dataCol rulesCol i with e | _ | ⟨bytes, src⟩
    · rw [referenceRow_of_error hoperands] at h
      injection h with h
      subst h
      rcases operands_eq_error_iff.mp hoperands with hdata | ⟨data, hdata, hrules⟩
      · obtain ⟨hnull, hty, rfl⟩ := blobBytes_eq_error_iff.mp hdata
        exact ⟨_, rfl, .data hnull hty⟩
      · obtain ⟨hnull, hty, rfl⟩ := textStr_eq_error_iff.mp hrules
        refine ⟨_, rfl, .rules ?_ hnull hty⟩
        rcases blobBytes_eq_ok_iff.mp hdata with ⟨hnull, -⟩ | ⟨-, hbytes, -⟩
        · exact .inl hnull
        · exact .inr hbytes
    · rw [referenceRow_of_null hoperands] at h
      cases h
    · obtain ⟨hpresent, hbytes, htext⟩ := operands_eq_some hoperands
      rw [referenceRow_of_present hbytes htext hpresent] at h
      have hcompile : compileOrError Y (A.stringValue rulesCol i) = .error s := by
        cases hrules : compileOrError Y (A.stringValue rulesCol i) with
        | error s' =>
            rw [hrules] at h
            cases h
            rfl
        | ok rules =>
            rw [hrules] at h
            cases h
      obtain ⟨d, hadd, rfl⟩ := (compileOrError_eq_error_iff Y _ _).mp hcompile
      exact ⟨_, rfl, .source hpresent.1 hbytes hpresent.2 htext hadd⟩
  · rintro ⟨e, rfl, hfails⟩
    cases hfails with
    | data hnull hty =>
        apply referenceRow_of_error
        rw [operands_eq_error_iff, blobBytes_eq_error_iff]
        exact .inl ⟨hnull, hty, rfl⟩
    | rules hdata hnull hty =>
        have hread : ∃ data, blobBytes A dataCol i = .ok data := by
          simp only [blobBytes_eq_ok_iff]
          rcases hdata with hdata | hdata
          · exact ⟨_, .inl ⟨hdata, rfl⟩⟩
          · cases hd : A.isNull dataCol i with
            | true => exact ⟨_, .inl ⟨rfl, rfl⟩⟩
            | false => exact ⟨_, .inr ⟨rfl, hdata, rfl⟩⟩
        obtain ⟨data, hdata⟩ := hread
        apply referenceRow_of_error
        rw [operands_eq_error_iff, textStr_eq_error_iff]
        exact .inr ⟨data, hdata, hnull, hty, rfl⟩
    | source hdata hbytes hrules htext hadd =>
        have hcompile := (compileOrError_eq_error_iff Y _ _).mpr ⟨_, hadd, rfl⟩
        rw [referenceRow_of_present hbytes htext ⟨hdata, hrules⟩, hcompile]
        rfl

/-- A row has a cell when it does not fail. -/
theorem exists_cell_iff :
    (∃ cell, referenceRow A Y kind dataCol rulesCol i = .ok cell)
      ↔ ∀ e, ¬ RowFails A Y dataCol rulesCol i e := by
  constructor
  · rintro ⟨cell, hcell⟩ e he
    rw [referenceRow_eq_error_iff.mpr ⟨e, rfl, he⟩] at hcell
    cases hcell
  · intro h
    cases hrow : referenceRow A Y kind dataCol rulesCol i with
    | ok cell => exact ⟨cell, rfl⟩
    | error s =>
        obtain ⟨e, -, he⟩ := referenceRow_eq_error_iff.mp hrow
        exact absurd he (h e)

/-- In a BLOB or VARCHAR column and a VARCHAR column only a source can fail. -/
theorem rowFails_iff_of_types (hdata : (A.dataType dataCol).IsBytes)
    (hrules : (A.dataType rulesCol).IsText) {e : RpcError} :
    RowFails A Y dataCol rulesCol i e
      ↔ BothPresent A.toArrowArrays dataCol rulesCol i
        ∧ compileOrError Y (A.stringValue rulesCol i) = .error (.error e) := by
  have hrow : referenceRow A Y .Matches dataCol rulesCol i = .error (.error e)
      ↔ RowFails A Y dataCol rulesCol i e := by
    rw [referenceRow_eq_error_iff]
    simp
  rw [← hrow]
  by_cases hpresent : BothPresent A.toArrowArrays dataCol rulesCol i
  · rw [referenceRow_of_present hdata hrules hpresent]
    cases compileOrError Y (A.stringValue rulesCol i) <;> simp [hpresent]
  · rw [referenceRow_of_absent hdata hrules hpresent]
    simp [hpresent]

/-- So such a row fails when it has both operands and its source does not compile. -/
theorem not_rowFails_iff_of_types (hdata : (A.dataType dataCol).IsBytes)
    (hrules : (A.dataType rulesCol).IsText) :
    (∀ e, ¬ RowFails A Y dataCol rulesCol i e)
      ↔ (BothPresent A.toArrowArrays dataCol rulesCol i →
          rulesCompile Y (A.stringValue rulesCol i) = true) := by
  simp only [rowFails_iff_of_types hdata hrules, rulesCompile_eq_true_iff]
  cases hcompile : compileOrError Y (A.stringValue rulesCol i) with
  | ok rules => simp
  | error s =>
      obtain ⟨e, rfl⟩ := compileOrError_eq_error Y hcompile
      simp

/-! ## Room for the first rules -/

/-- The length of the identifier `yara_first_rule` writes for row `i`. -/
def firstRuleLen (A : ArrowArrays) (Y : YaraX) (dataCol rulesCol : A.ArrayRef) (i : ℕ) : ℕ :=
  if A.isNull dataCol i || A.isNull rulesCol i then 0
  else match compileRules Y (A.stringValue rulesCol i) with
    | .ok rules => ((scanRules Y rules (cellBytes A dataCol i)).head?.map
        (fun first => first.rule.utf8ByteSize)).getD 0
    | .error _ => 0

/-- The identifiers of the first rules of all rows fit a string column. -/
def FirstRulesFit (A : ArrowArrays) (Y : YaraX) (dataCol rulesCol : A.ArrayRef) (rows : ℕ) : Prop :=
  ((List.range rows).map (firstRuleLen A Y dataCol rulesCol)).sum ≤ i32Max

theorem textLen_firstRule (rows : List RuleMatch) :
    (Kind.FirstRule.project rows).textLen
      = (rows.head?.map (fun first => first.rule.utf8ByteSize)).getD 0 := by
  rcases rows with _ | ⟨first, rows⟩ <;> rfl

/-- The text of a cell of `yara_first_rule`, whatever the columns. -/
theorem textLen_eq_firstRuleLen {cell : Cell}
    (h : referenceRow A Y .FirstRule dataCol rulesCol i = .ok cell) :
    cell.textLen = firstRuleLen A.toArrowArrays Y dataCol rulesCol i := by
  unfold firstRuleLen
  by_cases hpresent : BothPresent A.toArrowArrays dataCol rulesCol i
  · obtain ⟨rules, hcompile, rfl⟩ := referenceRow_of_not_null h hpresent.1 hpresent.2
    rw [hpresent.1, hpresent.2, hcompile]
    exact textLen_firstRule _
  · have hboth : (A.isNull dataCol i || A.isNull rulesCol i) = true := by
      by_contra hboth
      rw [Bool.or_eq_true, not_or, Bool.not_eq_true, Bool.not_eq_true] at hboth
      exact hpresent hboth
    rw [if_pos hboth]
    rcases hoperands : operands A dataCol rulesCol i with e | _ | row
    · rw [referenceRow_of_error hoperands] at h
      cases h
    · rw [referenceRow_of_null hoperands] at h
      cases h
      rfl
    · exact absurd (operands_eq_some hoperands).1 hpresent

/-- The cells of the first rows fit when the first rules do. -/
theorem fitsCells_iff_firstRulesFit {rows : ℕ} {cells : List Cell}
    (h : reference A Y kind dataCol rulesCol rows = .ok cells) :
    FitsCells cells
      ↔ (kind = .FirstRule → FirstRulesFit A.toArrowArrays Y dataCol rulesCol rows) := by
  unfold reference at h
  by_cases hkind : kind = .FirstRule
  · subst hkind
    rw [mapM_eq_ok_iff] at h
    -- row by row, the text of the cell is the identifier of the first rule
    have hlens : cells.map Cell.textLen
        = (List.range rows).map (firstRuleLen A.toArrowArrays Y dataCol rulesCol) := by
      generalize List.range rows = is at h ⊢
      induction h with
      | nil => rfl
      | cons hc _ ih => rw [List.map_cons, List.map_cons, ih, textLen_eq_firstRuleLen hc]
    rw [FitsCells, hlens]
    exact ⟨fun hfits _ => hfits, fun hfits => hfits rfl⟩
  · refine ⟨fun _ hk => absurd hk hkind, fun _ => ?_⟩
    have hrow : referenceRow A Y kind dataCol rulesCol
        = fun i => scanCell Y kind (scanInput A dataCol rulesCol i) := by
      funext i
      exact referenceRow_eq_scanCell Y kind dataCol rulesCol i
    have hcells : ((List.range rows).map (scanInput A dataCol rulesCol)).mapM (scanCell Y kind)
        = .ok cells := by
      rw [List.mapM_map, ← h, hrow]
      rfl
    exact fitsCells_scanCells hkind hcells

/-- The first rows have cells when none of them fails. -/
theorem exists_reference_iff {rows : ℕ} :
    (∃ cells, reference A Y kind dataCol rulesCol rows = .ok cells)
      ↔ ∀ j < rows, ∀ e, ¬ RowFails A Y dataCol rulesCol j e := by
  unfold reference
  rw [exists_mapM_eq_ok_iff]
  simp only [List.mem_range, exists_cell_iff]

end Rows

/-! ## The outcomes -/

section Outcomes

variable {A : Arrow} {Y : YaraX} {V : Vgi} {kind : Kind} {params : ProcessParams}
  {batch : A.RecordBatch}

/-- A call that stops: the row it stops at has no cell, or one there is no room for. -/
theorem processKind_eq_error_iff (hschema : params.outputSchema = onBind V kind) {s : Stop} :
    processKind A Y kind params batch = .error s
      ↔ ∃ i < A.numRows batch, ∃ cells,
          reference A Y kind (A.column batch 0) (A.column batch 1) i = .ok cells
          ∧ FitsCells cells
          ∧ (referenceRow A Y kind (A.column batch 0) (A.column batch 1) i = .error s
            ∨ ∃ cell, referenceRow A Y kind (A.column batch 0) (A.column batch 1) i = .ok cell
              ∧ ¬ FitsCells (cells ++ [cell]) ∧ s = .panic) := by
  unfold reference
  rw [← fill_range_eq_error_iff (fun _ _ => fitsCells_of_append) fitsCells_nil]
  exact (processKind_agree V kind hschema batch).error_iff s

/-- The rows up to one that has a cell. -/
theorem reference_succ {dataCol rulesCol : A.ArrayRef} {i : ℕ} {cells : List Cell} {cell : Cell}
    (h : reference A Y kind dataCol rulesCol i = .ok cells)
    (hcell : referenceRow A Y kind dataCol rulesCol i = .ok cell) :
    reference A Y kind dataCol rulesCol (i + 1) = .ok (cells ++ [cell]) := by
  unfold reference at h ⊢
  rw [List.range_succ, mapM_append_eq_ok_iff]
  refine ⟨cells, [cell], h, ?_, rfl⟩
  rw [mapM_cons_eq_ok_iff]
  exact ⟨cell, [], hcell, rfl, rfl⟩

/-- **A reported error** is that of the first row that fails, with room for the identifiers
before it. -/
theorem processKind_reports_iff (hschema : params.outputSchema = onBind V kind) {e : RpcError} :
    processKind A Y kind params batch = .error (.error e)
      ↔ ∃ i < A.numRows batch, RowFails A Y (A.column batch 0) (A.column batch 1) i e
          ∧ (∀ j < i, ∀ e', ¬ RowFails A Y (A.column batch 0) (A.column batch 1) j e')
          ∧ (kind = .FirstRule →
              FirstRulesFit A.toArrowArrays Y (A.column batch 0) (A.column batch 1) i) := by
  rw [processKind_eq_error_iff hschema]
  constructor
  · rintro ⟨i, hi, cells, hcells, hfits, hrow | ⟨_, _, _, hpanic⟩⟩
    · obtain ⟨e', he', hfails⟩ := referenceRow_eq_error_iff.mp hrow
      cases he'
      exact ⟨i, hi, hfails, exists_reference_iff.mp ⟨cells, hcells⟩,
        (fitsCells_iff_firstRulesFit hcells).mp hfits⟩
    · cases hpanic
  · rintro ⟨i, hi, hfails, hbefore, hfits⟩
    obtain ⟨cells, hcells⟩ := exists_reference_iff.mpr hbefore
    exact ⟨i, hi, cells, hcells, (fitsCells_iff_firstRulesFit hcells).mpr hfits,
      .inl (referenceRow_eq_error_iff.mpr ⟨e, rfl, hfails⟩)⟩

/-- **A panic** is `yara_first_rule` out of room for the identifiers before a row fails. -/
theorem processKind_panics_iff (hschema : params.outputSchema = onBind V kind) :
    processKind A Y kind params batch = .error .panic
      ↔ kind = .FirstRule ∧ ∃ k ≤ A.numRows batch,
          (∀ j < k, ∀ e, ¬ RowFails A Y (A.column batch 0) (A.column batch 1) j e)
          ∧ ¬ FirstRulesFit A.toArrowArrays Y (A.column batch 0) (A.column batch 1) k := by
  constructor
  · intro h
    obtain ⟨i, hi, cells, hcells, hfits, hrow⟩ := (processKind_eq_error_iff hschema).mp h
    rcases hrow with hrow | ⟨cell, hcell, hfull, -⟩
    · obtain ⟨e, he, -⟩ := referenceRow_eq_error_iff.mp hrow
      cases he
    · -- the row at which the builder is full
      have hmore := reference_succ hcells hcell
      rw [fitsCells_iff_firstRulesFit hmore, not_forall] at hfull
      obtain ⟨hkind, hfull⟩ := hfull
      exact ⟨hkind, i + 1, hi, exists_reference_iff.mp ⟨_, hmore⟩, hfull⟩
  · rintro ⟨hkind, k, hk, hbefore, hfull⟩
    obtain ⟨cells, hcells⟩ := exists_reference_iff.mpr hbefore
    have hstop : fill FitsCells .panic
        (referenceRow A Y kind (A.column batch 0) (A.column batch 1)) (List.range k)
        = .error .panic := by
      rw [fill_of_mapM_eq_ok (fun _ _ => fitsCells_of_append) fitsCells_nil hcells, if_neg]
      rw [fitsCells_iff_firstRulesFit hcells]
      exact fun hfits => hfull (hfits hkind)
    have hrows : A.numRows batch = k + (A.numRows batch - k) := by omega
    rw [(processKind_agree V kind hschema batch).error_iff, hrows, List.range_add]
    exact fill_append_of_error (fun _ _ => fitsCells_of_append) fitsCells_nil hstop

/-- **Success**: no row fails, and the identifiers fit. -/
theorem processKind_succeeds_iff (hschema : params.outputSchema = onBind V kind) :
    (∃ b, processKind A Y kind params batch = .ok b)
      ↔ (∀ i < A.numRows batch, ∀ e, ¬ RowFails A Y (A.column batch 0) (A.column batch 1) i e)
          ∧ (kind = .FirstRule → FirstRulesFit A.toArrowArrays Y (A.column batch 0)
              (A.column batch 1) (A.numRows batch)) := by
  have hrows : (∃ cells, reference A Y kind (A.column batch 0) (A.column batch 1)
      (A.numRows batch) = .ok cells) ↔ _ := exists_reference_iff
  rw [processKind_eq_ok_iff hschema, ← hrows]
  constructor
  · rintro ⟨cells, hcells, hfits⟩
    exact ⟨⟨cells, hcells⟩, (fitsCells_iff_firstRulesFit hcells).mp hfits⟩
  · rintro ⟨⟨cells, hcells⟩, hfits⟩
    exact ⟨cells, hcells, (fitsCells_iff_firstRulesFit hcells).mpr hfits⟩

end Outcomes

end YaraWorker
