/-
# Scans of selected rows

A query engine hands a scan scalar the rows it likes: those a filter keeps, sorted, or one
row several times.  `Gathers sel` says that a batch holds the rows of another one at the
positions `sel`.

* `processKind_gathers` : the cells of the selected rows are the selected cells;
* `matches_filter` : what a filter on `yara_matches` promises the other two scalars.
-/
import Mathlib.Algebra.Order.BigOperators.Group.List
import YaraWorker.LogicalRows
import YaraWorker.ScalarTable

open Columnar FallibleRuns

namespace YaraWorker

/-! ## Selected rows -/

/-- `batch'` holds the rows of `batch` at the positions `sel`, in that order. -/
structure Gathers (A : Arrow) (sel : List ℕ) (batch batch' : A.RecordBatch) : Prop where
  numRows_eq : A.numRows batch' = sel.length
  lt : ∀ i ∈ sel, i < A.numRows batch
  operands_eq : ∀ j i, sel[j]? = some i →
    operands A (A.column batch' 0) (A.column batch' 1) j
      = operands A (A.column batch 0) (A.column batch 1) i

section Picked

variable {A : Arrow} {Y : YaraX} {V : Vgi} {kind : Kind} {params params' : ProcessParams}
  {batch batch' b : A.RecordBatch} {sel : List ℕ}

/-- Selected rows are worth what they were. -/
theorem Gathers.picks (h : Gathers A sel batch batch') :
    Picks sel (scanInputs A batch) (scanInputs A batch') := by
  unfold Picks
  rw [List.forall₂_iff_get]
  refine ⟨by rw [length_scanInputs, h.numRows_eq], ?_⟩
  intro j hj hj'
  have hi : sel[j] < A.numRows batch := h.lt _ (List.getElem_mem hj)
  have hrow := h.operands_eq j sel[j] (List.getElem?_eq_getElem hj)
  rw [List.get_eq_getElem, List.get_eq_getElem, getElem?_scanInputs hi]
  simp only [scanInputs, List.getElem_map, List.getElem_range, scanInput, hrow]

/-- Some of the cells, in any order, fit when all of them do. -/
theorem fitsCells_of_subperm {cells cells' : List Cell} (h : cells'.Subperm cells)
    (hfits : FitsCells cells) : FitsCells cells' := by
  obtain ⟨mid, hperm, hsub⟩ := h
  have hmid : (mid.map Cell.textLen).sum = (cells'.map Cell.textLen).sum :=
    (hperm.map Cell.textLen).sum_nat
  have hle : (mid.map Cell.textLen).sum ≤ (cells.map Cell.textLen).sum :=
    (hsub.map Cell.textLen).sum_le_sum (fun _ _ => Nat.zero_le _)
  unfold FitsCells at hfits ⊢
  omega

/-- **Scanning commutes with selecting.**  On rows selected from a batch on which a scan
scalar succeeds, in any order and with repetitions, it returns the selected cells; only
`yara_first_rule` can fail, for want of room, and it does not if no row is selected
twice. -/
theorem processKind_gathers (A : Arrow) (Y : YaraX) (V : Vgi) (kind : Kind)
    (params params' : ProcessParams) (hschema : params.outputSchema = onBind V kind)
    (hschema' : params'.outputSchema = onBind V kind) (batch batch' b : A.RecordBatch)
    (hb : processKind A Y kind params batch = .ok b) (sel : List ℕ)
    (hsel : Gathers A sel batch batch') :
    ∃ cells, Picks sel (kind.decode A.toArrowArrays (A.column b 0)) cells
      ∧ Agree (IsOutput A kind) (processKind A Y kind params' batch')
          (if FitsCells cells then .ok cells else .error .panic)
      ∧ (kind ≠ .FirstRule ∨ sel.Nodup → FitsCells cells) := by
  obtain ⟨hcells, hfits⟩ := scanCells_of_processKind hschema hb
  obtain ⟨cells, hrun, hpicks⟩ := hsel.picks.mapM_eq_ok hcells
  refine ⟨cells, hpicks, processKind_of_scanCells hschema' hrun, ?_⟩
  rintro (hkind | hnodup)
  · exact fitsCells_scanCells hkind hrun
  · exact fitsCells_of_subperm (Picks.subperm hpicks hnodup) hfits

end Picked

/-- The last row of `repeatedBatch`, then its first row twice. -/
def selectedBatch : Batch :=
  ⟨[], [blobColumn .Binary [some [], some [1], some [1]],
    textColumn .Utf8 [some "r", some "r", some "r"]], 3⟩

theorem gathers_selectedBatch : Gathers columnar [3, 0, 0] repeatedBatch selectedBatch where
  numRows_eq := rfl
  lt := by decide
  operands_eq := by
    have hrow : ∀ j < 3, ∀ i < 4, [3, 0, 0][j]? = some i →
        operands columnar (columnar.column selectedBatch 0) (columnar.column selectedBatch 1) j
          = operands columnar (columnar.column repeatedBatch 0) (columnar.column repeatedBatch 1) i := by
      intro j hj i hi h
      refine (operands_columns _ _ hj hj).trans ?_
      refine Eq.trans ?_ (operands_columns _ _ hi hi).symm
      apply congrArg Except.ok
      revert h
      revert i
      revert j
      decide
    intro j i h
    obtain ⟨hj, rfl⟩ := List.getElem?_eq_some_iff.mp h
    refine hrow j hj _ ?_ h
    revert j
    decide

/-- A row that comes back out of order and twice. -/
theorem processKind_gathers_selected :
    ∃ b, processKind columnar echo .FirstRule (.ofSchema (onBind .named .FirstRule)) selectedBatch
        = .ok b
      ∧ IsOutput columnar .FirstRule b [.varchar "r", .varchar "r", .varchar "r"] := by
  obtain ⟨b, hb⟩ := exists_processKind_repeatedBatch
  obtain ⟨cells, hcells, -, -, hdecode⟩ := processKind_ok (V := .named) rfl hb
  rw [reference_repeatedBatch] at hcells
  cases hcells
  obtain ⟨cells, hpicks, hagree, -⟩ := processKind_gathers columnar echo .named .FirstRule _
    (.ofSchema (onBind .named .FirstRule)) rfl rfl repeatedBatch selectedBatch b hb [3, 0, 0]
    gathers_selectedBatch
  rw [Picks.eq_filterMap hpicks, hdecode] at hagree
  rw [if_pos (by decide)] at hagree
  obtain ⟨b', hb'⟩ := hagree.exists_ok_iff.mpr ⟨_, rfl⟩
  rw [hb'] at hagree
  obtain ⟨_, hcells, houtput⟩ := hagree.exists_of_ok
  cases hcells
  exact ⟨b', hb', houtput⟩

/-! ## Filters on `yara_matches` -/

section Filters

variable {A : Arrow} {Y : YaraX} {V : Vgi}

/-- A row on which `yara_matches` is not NULL: all three scalars see the same matching
rules. -/
theorem scanCell_of_boolean (hcount : Y.BoundsRules) {x : ScanInput} {keep : Bool}
    (h : scanCell Y .Matches x = .ok (.boolean keep)) :
    ∃ rows : List RuleMatch, (rows = [] ↔ keep = false) ∧ rows.length ≤ i32Max
      ∧ ∀ kind : Kind, scanCell Y kind x = .ok (kind.project rows) := by
  rcases x with e | _ | ⟨bytes, src⟩
  · cases h
  · cases h
  · rcases hrules : compileOrError Y src with e | rules
    · rw [scanCell_of_error hrules] at h
      cases h
    · rw [scanCell_of_ok hrules] at h
      refine ⟨referenceScan Y rules bytes, ?_, ?_, fun kind => scanCell_of_ok hrules⟩
      · injection h with h
        injection h with h
        rw [← h, Bool.not_eq_false', List.isEmpty_iff]
      · rw [← scanRules_eq_referenceScan]
        exact length_scanRules_le hcount rules bytes

/-- Rows on which `yara_matches` says `keep`, with the matching rules of each. -/
theorem exists_rows_of_boolean (hcount : Y.BoundsRules) {xs : List ScanInput} {keep : Bool}
    (h : ∀ x ∈ xs, scanCell Y .Matches x = .ok (.boolean keep)) :
    ∃ rowss : List (List RuleMatch), rowss.length = xs.length
      ∧ (∀ rows ∈ rowss, (rows = [] ↔ keep = false) ∧ rows.length ≤ i32Max)
      ∧ ∀ kind : Kind, xs.mapM (scanCell Y kind) = .ok (rowss.map kind.project) := by
  induction xs with
  | nil => exact ⟨[], rfl, by simp, fun _ => rfl⟩
  | cons x xs ih =>
      rw [List.forall_mem_cons] at h
      obtain ⟨rows, hempty, hlen, hcell⟩ := scanCell_of_boolean hcount h.1
      obtain ⟨rowss, hlength, hrows, hcells⟩ := ih h.2
      refine ⟨rows :: rowss, by simp [hlength], ?_, ?_⟩
      · rw [List.forall_mem_cons]
        exact ⟨⟨hempty, hlen⟩, hrows⟩
      · intro kind
        rw [mapM_cons_eq_ok_iff]
        exact ⟨_, _, hcell kind, hcells kind, rfl⟩

/-- The rows a filter on `yara_matches` selects. -/
theorem boolean_of_gathers {params : ProcessParams} (hschema : params.outputSchema = onBind V .Matches)
    {batch batch' bm : A.RecordBatch} (hbm : processKind A Y .Matches params batch = .ok bm)
    {keep : Bool} {sel : List ℕ}
    (hkeep : ∀ i ∈ sel, (Kind.Matches.decode A.toArrowArrays (A.column bm 0))[i]?
      = some (.boolean keep))
    (hsel : Gathers A sel batch batch') :
    ∀ x ∈ scanInputs A batch', scanCell Y .Matches x = .ok (.boolean keep) := by
  obtain ⟨hcells, -⟩ := scanCells_of_processKind hschema hbm
  have hpicks := hsel.picks
  unfold Picks at hpicks
  clear hsel
  generalize scanInputs A batch' = xs at hpicks ⊢
  -- row by row of the filtered batch
  induction hpicks with
  | nil => simp
  | @cons i x sel xs hi _ ih =>
      rw [List.forall_mem_cons] at hkeep ⊢
      refine ⟨?_, ih hkeep.2⟩
      obtain ⟨cell, hcell, hrow⟩ := getElem?_of_mapM_eq_ok hcells hi
      rw [hkeep.1] at hcell
      injection hcell with hcell
      rw [hrow, hcell]

/-- The call of a scalar without text on rows whose matching rules are known. -/
theorem exists_output_of_rows {kind : Kind} (hkind : kind ≠ .FirstRule) {params : ProcessParams}
    (hschema : params.outputSchema = onBind V kind) {batch : A.RecordBatch}
    {rowss : List (List RuleMatch)}
    (h : (scanInputs A batch).mapM (scanCell Y kind) = .ok (rowss.map kind.project)) :
    ∃ b, processKind A Y kind params batch = .ok b
      ∧ IsOutput A kind b (rowss.map kind.project) := by
  have hagree := processKind_of_scanCells hschema h
  rw [if_pos (fitsCells_scanCells hkind h)] at hagree
  obtain ⟨b, hb⟩ := hagree.exists_ok_iff.mpr ⟨_, rfl⟩
  rw [hb] at hagree
  obtain ⟨cells, hcells, houtput⟩ := hagree.exists_of_ok
  injection hcells with hcells
  rw [hcells]
  exact ⟨b, hb, houtput⟩

/-- **Filtering on `yara_matches`.**  On the rows where it is true, `yara_first_rule` is
never NULL and `yara_match_count` is positive; on the rows where it is false the one is
NULL and the other `0`.  No error is reported on either side, whatever the order and the
multiplicity of the rows. -/
theorem matches_filter (A : Arrow) (Y : YaraX) (hcount : Y.BoundsRules) (V : Vgi)
    (params : ProcessParams) (hschema : params.outputSchema = onBind V .Matches)
    (batch bm : A.RecordBatch) (hbm : processKind A Y .Matches params batch = .ok bm)
    (keep : Bool) (sel : List ℕ)
    (hkeep : ∀ i ∈ sel, (Kind.Matches.decode A.toArrowArrays (A.column bm 0))[i]?
      = some (.boolean keep))
    (batch' : A.RecordBatch) (hsel : Gathers A sel batch batch') :
    (∀ params', params'.outputSchema = onBind V .Matches →
      ∃ b, processKind A Y .Matches params' batch' = .ok b
        ∧ Kind.Matches.decode A.toArrowArrays (A.column b 0)
            = List.replicate sel.length (.boolean keep))
    ∧ (∀ params', params'.outputSchema = onBind V .MatchCount →
      ∃ b, processKind A Y .MatchCount params' batch' = .ok b ∧ A.numRows b = sel.length
        ∧ ∀ cell ∈ Kind.MatchCount.decode A.toArrowArrays (A.column b 0),
            ∃ n : Int32, cell = .int n ∧ 0 ≤ n.toInt ∧ (n.toInt = 0 ↔ keep = false))
    ∧ ∀ params', params'.outputSchema = onBind V .FirstRule →
      (∀ e, processKind A Y .FirstRule params' batch' ≠ .error (.error e))
        ∧ ∀ b, processKind A Y .FirstRule params' batch' = .ok b → A.numRows b = sel.length
          ∧ ∀ cell ∈ Kind.FirstRule.decode A.toArrowArrays (A.column b 0),
              (cell = .null ↔ keep = false) := by
  obtain ⟨rowss, hlength, hrows, hcells⟩ :=
    exists_rows_of_boolean hcount (boolean_of_gathers hschema hbm hkeep hsel)
  rw [length_scanInputs, hsel.numRows_eq] at hlength
  refine ⟨?_, ?_, ?_⟩
  · intro params' hschema'
    obtain ⟨b, hb, -, -, hdecode⟩ := exists_output_of_rows (by simp) hschema' (hcells .Matches)
    refine ⟨b, hb, ?_⟩
    rw [hdecode, List.eq_replicate_iff]
    refine ⟨by rw [List.length_map, hlength], ?_⟩
    intro cell hcell
    obtain ⟨rows, hmem, rfl⟩ := List.mem_map.mp hcell
    obtain ⟨hempty, hlen⟩ := hrows rows hmem
    obtain ⟨any, hany, htrue⟩ := describes_project .Matches hlen
    rw [hany]
    cases any <;> cases keep <;> simp_all
  · intro params' hschema'
    obtain ⟨b, hb, hnum, -, hdecode⟩ := exists_output_of_rows (by simp) hschema' (hcells .MatchCount)
    refine ⟨b, hb, by rw [hnum, List.length_map, hlength], ?_⟩
    intro cell hcell
    rw [hdecode] at hcell
    obtain ⟨rows, hmem, rfl⟩ := List.mem_map.mp hcell
    obtain ⟨hempty, hlen⟩ := hrows rows hmem
    obtain ⟨n, hn, hcount, hpos⟩ := describes_project .MatchCount hlen
    refine ⟨n, hn, hpos, ?_⟩
    rw [← hempty, hcount, ← List.length_eq_zero_iff]
    omega
  · intro params' hschema'
    have hagree := processKind_of_scanCells hschema' (hcells .FirstRule)
    constructor
    · intro e he
      rw [he] at hagree
      have hstop := hagree.eq_of_error
      split at hstop <;> simp at hstop
    · intro b hb
      rw [hb] at hagree
      obtain ⟨cells, hcells', hnum, -, hdecode⟩ := hagree.exists_of_ok
      split at hcells'
      · cases hcells'
        refine ⟨by rw [hnum, List.length_map, hlength], ?_⟩
        intro cell hcell
        rw [hdecode] at hcell
        obtain ⟨rows, hmem, rfl⟩ := List.mem_map.mp hcell
        obtain ⟨hempty, hlen⟩ := hrows rows hmem
        rw [(describes_project .FirstRule hlen).1, hempty]
      · cases hcells'

end Filters

theorem referenceRow_echo_matches {dataCol rulesCol : Column} {i : ℕ} {bytes : List UInt8}
    {src : String} (h : operands columnar dataCol rulesCol i = .ok (some (bytes, src))) :
    referenceRow columnar echo .Matches dataCol rulesCol i = .ok (.boolean true) := by
  rw [referenceRow_of_some h, compileOrError_echo]
  rfl

theorem reference_matches_repeatedBatch :
    reference columnar echo .Matches (columnar.column repeatedBatch 0)
      (columnar.column repeatedBatch 1) (columnar.numRows repeatedBatch)
      = .ok [.boolean true, .boolean true, .null, .boolean true] := by
  unfold reference
  rw [mapM_eq_ok_iff]
  exact .cons (referenceRow_echo_matches (operands_columns _ _ (by decide) (by decide)))
    (.cons (referenceRow_echo_matches (operands_columns _ _ (by decide) (by decide)))
      (.cons (referenceRow_of_null (operands_columns _ _ (by decide) (by decide)))
        (.cons (referenceRow_echo_matches (operands_columns _ _ (by decide) (by decide))) .nil)))

/-- Three of the rows of `repeatedBatch` that `yara_matches` keeps. -/
theorem matches_filter_selected :
    ∃ b, processKind columnar echo .MatchCount (.ofSchema (onBind .named .MatchCount)) selectedBatch
        = .ok b
      ∧ ∀ cell ∈ Kind.MatchCount.decode columnar.toArrowArrays (columnar.column b 0),
          ∃ n : Int32, cell = .int n ∧ 0 ≤ n.toInt ∧ n.toInt ≠ 0 := by
  have hok : ∃ bm, processKind columnar echo .Matches (.ofSchema (onBind .named .Matches))
      repeatedBatch = .ok bm :=
    (processKind_eq_ok_iff (V := .named) rfl).mpr ⟨_, reference_matches_repeatedBatch, by decide⟩
  obtain ⟨bm, hbm⟩ := hok
  obtain ⟨cells, hcells, -, -, hdecode⟩ := processKind_ok (V := .named) rfl hbm
  rw [reference_matches_repeatedBatch] at hcells
  cases hcells
  obtain ⟨-, hcount, -⟩ := matches_filter columnar echo echo_boundsRules .named
    (.ofSchema (onBind .named .Matches)) rfl repeatedBatch bm hbm true [3, 0, 0]
    (by rw [hdecode]; decide) selectedBatch gathers_selectedBatch
  obtain ⟨b, hb, -, hb'⟩ := hcount (.ofSchema (onBind .named .MatchCount)) rfl
  refine ⟨b, hb, ?_⟩
  intro cell hcell
  obtain ⟨n, hn, hpos, hzero⟩ := hb' cell hcell
  exact ⟨n, hn, hpos, by simpa using hzero⟩

end YaraWorker
