/-
# Every outcome of a scan scalar

A call reports the reason of the first row that has no cell, unless the string builder of
`yara_first_rule` is full before; there is no other way for it to fail.

* `processKind_outcome` : when a call reports which error, panics or succeeds;
* `processKind_sameSources` : the scanned bytes have no say in that.
-/
import YaraWorker.CacheRuns
import YaraWorker.RowFailures

open Columnar FallibleRuns

namespace YaraWorker

/-! ## The outcomes -/

/-- **Every outcome.**  A call reports an error exactly when that is the error of the first
row that fails and, for `yara_first_rule`, the identifiers before that row fit; it panics
exactly when it is `yara_first_rule` and the identifiers outgrow the string column before a
row fails; and it succeeds exactly when no row fails and the identifiers fit. -/
theorem processKind_outcome (A : Arrow) (Y : YaraX) (V : Vgi) (kind : Kind) (params : ProcessParams)
    (hschema : params.outputSchema = onBind V kind) (batch : A.RecordBatch) :
    (∀ e, processKind A Y kind params batch = .error (.error e)
      ↔ ∃ i < A.numRows batch, RowFails A Y (A.column batch 0) (A.column batch 1) i e
          ∧ (∀ j < i, ∀ e', ¬ RowFails A Y (A.column batch 0) (A.column batch 1) j e')
          ∧ (kind = .FirstRule →
              FirstRulesFit A.toArrowArrays Y (A.column batch 0) (A.column batch 1) i))
    ∧ (processKind A Y kind params batch = .error .panic
      ↔ kind = .FirstRule ∧ ∃ k ≤ A.numRows batch,
          (∀ j < k, ∀ e, ¬ RowFails A Y (A.column batch 0) (A.column batch 1) j e)
          ∧ ¬ FirstRulesFit A.toArrowArrays Y (A.column batch 0) (A.column batch 1) k)
    ∧ ((∃ b, processKind A Y kind params batch = .ok b)
      ↔ (∀ i < A.numRows batch, ∀ e, ¬ RowFails A Y (A.column batch 0) (A.column batch 1) i e)
          ∧ (kind = .FirstRule → FirstRulesFit A.toArrowArrays Y (A.column batch 0)
              (A.column batch 1) (A.numRows batch))) := by
  exact ⟨fun e => processKind_reports_iff hschema, processKind_panics_iff hschema,
    processKind_succeeds_iff hschema⟩

/-- A good row before one whose source does not compile. -/
def brokenBatch : Batch :=
  ⟨[], [blobColumn .Binary [some [], some [0]], textColumn .Utf8 [some "a", some "bad"]], 2⟩

/-- The second row fails. -/
theorem rowFails_brokenBatch :
    RowFails columnar RuleCache.rejectsBad (columnar.column brokenBatch 0)
      (columnar.column brokenBatch 1) 1 (.valueError ("invalid YARA rule: " ++ "syntax error")) := by
  have hnull : columnar.isNull (columnar.column brokenBatch 0) 1 = false
      ∧ columnar.isNull (columnar.column brokenBatch 1) 1 = false := by decide
  have hsrc : columnar.stringValue (columnar.column brokenBatch 1) 1 = "bad" := by decide
  have hadd : RuleCache.rejectsBad.addSource RuleCache.rejectsBad.new
      (columnar.stringValue (columnar.column brokenBatch 1) 1) = .error "syntax error" := by
    rw [hsrc]
    rfl
  exact .source hnull.1 (.inl rfl) hnull.2 (.inl rfl) hadd

/-- The first row does not. -/
theorem not_rowFails_brokenBatch : ∀ j < 1, ∀ e, ¬ RowFails columnar RuleCache.rejectsBad
    (columnar.column brokenBatch 0) (columnar.column brokenBatch 1) j e := by
  intro j hj e he
  obtain rfl : j = 0 := by omega
  have hsrc : columnar.stringValue (columnar.column brokenBatch 1) 0 = "a" := by decide
  cases he with
  | data _ hty => exact hty (.inl rfl)
  | rules _ _ hty => exact hty (.inl rfl)
  | source _ _ _ _ hadd =>
      rw [hsrc] at hadd
      cases hadd

/-- The error of the second row. -/
theorem processKind_outcome_broken :
    processKind columnar RuleCache.rejectsBad .Matches (.ofSchema (onBind .named .Matches))
        brokenBatch
      = .error (.error (.valueError ("invalid YARA rule: " ++ "syntax error"))) := by
  refine ((processKind_outcome columnar RuleCache.rejectsBad .named .Matches
    (.ofSchema (onBind .named .Matches)) rfl brokenBatch).1 _).mpr
    ⟨1, by decide, rowFails_brokenBatch, not_rowFails_brokenBatch, ?_⟩
  intro hkind
  cases hkind

/-! ## The scanned bytes -/

/-- The source of the rules of a row; the data only matters as far as it is NULL or cannot be
read. -/
def ScanInput.source (x : ScanInput) : Outcome (Option String) := Option.map Prod.snd <$> x

/-- A row's error depends on its source alone. -/
theorem scanCell_eq_error_iff_of_source {Y : YaraX} {kind : Kind} {x x' : ScanInput}
    (h : x.source = x'.source) (e : Stop) :
    scanCell Y kind x = .error e ↔ scanCell Y kind x' = .error e := by
  unfold ScanInput.source at h
  rcases x with e₁ | _ | ⟨bytes, src⟩ <;> rcases x' with e₂ | _ | ⟨bytes', src'⟩ <;> cases h
  · exact Iff.rfl
  · exact Iff.rfl
  · cases hrules : compileOrError Y src with
    | error s => rw [scanCell_of_error hrules, scanCell_of_error hrules]
    | ok rules =>
        rw [scanCell_of_ok hrules, scanCell_of_ok hrules]
        simp

section SameSources

variable {A : Arrow} {batch batch' : A.RecordBatch}

/-- Row by row, the two batches have the same source. -/
theorem forall₂_source (hrows : A.numRows batch' = A.numRows batch)
    (hsrc : ∀ i < A.numRows batch,
      Option.map Prod.snd <$> operands A (A.column batch 0) (A.column batch 1) i
        = Option.map Prod.snd <$> operands A (A.column batch' 0) (A.column batch' 1) i) :
    List.Forall₂ (fun x x' : ScanInput => x.source = x'.source) (scanInputs A batch)
      (scanInputs A batch') := by
  have hcut : ∀ o : ScanInput, ScanInput.source
      (Option.map (fun row => (row.1.take maxDataLen, row.2)) <$> o) = Option.map Prod.snd <$> o := by
    intro o
    rcases o with e | _ | row <;> rfl
  rw [scanInputs, scanInputs, hrows, List.forall₂_map_left_iff, List.forall₂_map_right_iff,
    List.forall₂_same]
  intro i hi
  rw [List.mem_range] at hi
  rw [scanInput, scanInput, hcut, hcut, hsrc i hi]

end SameSources

/-- **No blob decides an error.**  Take two batches whose rows have the same sources (or
NULLs, or cells that cannot be read) and any data.  An error reported on one is reported on
the other and both succeed together, except that `yara_first_rule` may run out of room on
the other; when both succeed, rows with the same data up to the bound have the same cell,
whatever the other rows are. -/
theorem processKind_sameSources (A : Arrow) (Y : YaraX) (V : Vgi) (kind : Kind)
    (params params' : ProcessParams) (hschema : params.outputSchema = onBind V kind)
    (hschema' : params'.outputSchema = onBind V kind) (batch batch' : A.RecordBatch)
    (hrows : A.numRows batch' = A.numRows batch)
    (hsrc : ∀ i < A.numRows batch,
      Option.map Prod.snd <$> operands A (A.column batch 0) (A.column batch 1) i
        = Option.map Prod.snd <$> operands A (A.column batch' 0) (A.column batch' 1) i) :
    (∀ e, processKind A Y kind params batch = .error (.error e) →
      processKind A Y kind params' batch' = .error (.error e)
        ∨ (kind = .FirstRule ∧ processKind A Y kind params' batch' = .error .panic))
    ∧ ((∃ b, processKind A Y kind params batch = .ok b) →
      (∃ b', processKind A Y kind params' batch' = .ok b')
        ∨ (kind = .FirstRule ∧ processKind A Y kind params' batch' = .error .panic))
    ∧ ∀ b b', processKind A Y kind params batch = .ok b →
        processKind A Y kind params' batch' = .ok b' →
        ∀ i < A.numRows batch,
          scanInput A (A.column batch 0) (A.column batch 1) i
            = scanInput A (A.column batch' 0) (A.column batch' 1) i →
          (kind.decode A.toArrowArrays (A.column b 0))[i]?
            = (kind.decode A.toArrowArrays (A.column b' 0))[i]? := by
  have hsame : List.Forall₂ (fun x x' => ∀ e, scanCell Y kind x = .error e
      ↔ scanCell Y kind x' = .error e) (scanInputs A batch) (scanInputs A batch') :=
    (forall₂_source hrows hsrc).imp (fun _ _ h => scanCell_eq_error_iff_of_source h)
  have hpanic : processKind A Y kind params' batch' = .error .panic →
      kind = .FirstRule ∧ processKind A Y kind params' batch' = .error .panic :=
    fun h => ⟨((processKind_panics_iff hschema').mp h).1, h⟩
  refine ⟨?_, ?_, ?_⟩
  · intro e he
    rw [(processKind_scanInputs hschema batch).error_iff] at he
    rcases fill_error_of_same_errors (fun _ _ => fitsCells_of_append) fitsCells_nil hsame
      (by simp) he with hstop | hstop
    · exact .inl (((processKind_scanInputs hschema' batch').error_iff _).mpr hstop)
    · exact .inr (hpanic (((processKind_scanInputs hschema' batch').error_iff _).mpr hstop))
  · rintro ⟨b, hb⟩
    obtain ⟨cells, hcells⟩ := exists_mapM_of_same_errors hsame
      ⟨_, (scanCells_of_processKind hschema hb).1⟩
    have hagree := processKind_of_scanCells hschema' hcells
    by_cases hfits : FitsCells cells
    · rw [if_pos hfits] at hagree
      exact .inl (hagree.exists_ok_iff.mpr ⟨_, rfl⟩)
    · rw [if_neg hfits] at hagree
      exact .inr (hpanic ((hagree.error_iff _).mpr rfl))
  · intro b b' hb hb' i hi hrow
    have hget := getElem?_scanInputs hi
    have hget' := getElem?_scanInputs (hrows ▸ hi : i < A.numRows batch')
    rw [← hrow] at hget'
    exact getElem?_eq_of_mapM_eq_ok (scanCells_of_processKind hschema hb).1
      (scanCells_of_processKind hschema' hb').1 hget hget'

/-- `brokenBatch` with other bytes in both rows. -/
def hostileBatch : Batch :=
  ⟨[], [blobColumn .Binary [some [255, 0], some []], textColumn .Utf8 [some "a", some "bad"]], 2⟩

/-- The error stays, whatever the bytes. -/
theorem processKind_sameSources_hostile :
    processKind columnar RuleCache.rejectsBad .Matches (.ofSchema (onBind .named .Matches))
        hostileBatch
      = .error (.error (.valueError ("invalid YARA rule: " ++ "syntax error"))) := by
  have hstop : processKind columnar RuleCache.rejectsBad .Matches
      (.ofSchema (onBind .named .Matches)) brokenBatch
        = .error (.error (.valueError ("invalid YARA rule: " ++ "syntax error"))) := by
    obtain ⟨cells, hcells⟩ := exists_reference_iff.mpr not_rowFails_brokenBatch
    refine (processKind_eq_error_iff (V := .named) rfl).mpr ⟨1, by decide, cells, hcells, ?_,
      .inl (referenceRow_eq_error_iff.mpr ⟨_, rfl, rowFails_brokenBatch⟩)⟩
    rw [fitsCells_iff_firstRulesFit hcells]
    intro hkind
    cases hkind
  have hsrc : ∀ i < 2, Option.map Prod.snd <$> operands columnar (columnar.column brokenBatch 0)
        (columnar.column brokenBatch 1) i
      = Option.map Prod.snd <$> operands columnar (columnar.column hostileBatch 0)
        (columnar.column hostileBatch 1) i := by
    intro i hi
    rw [show operands columnar (columnar.column brokenBatch 0) (columnar.column brokenBatch 1) i = _
      from operands_columns _ _ hi hi]
    rw [show operands columnar (columnar.column hostileBatch 0) (columnar.column hostileBatch 1) i
      = _ from operands_columns _ _ hi hi]
    apply congrArg Except.ok
    revert i
    decide
  rcases (processKind_sameSources columnar RuleCache.rejectsBad .named .Matches
    (.ofSchema (onBind .named .Matches)) (.ofSchema (onBind .named .Matches)) rfl rfl brokenBatch
    hostileBatch rfl hsrc).1 _ hstop with h | ⟨hkind, -⟩
  · exact h
  · cases hkind

end YaraWorker
