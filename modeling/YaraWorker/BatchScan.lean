/-
# The batch scan against its row-by-row meaning

`reference` says what a batch of rows means: left to right, every row compiled
afresh and scanned on its own bytes.  `processKind` carries one rule cache and one
output builder across all rows.

* `processRow_agree` : one row keeps the cache coherent and appends the reference
  cell, or stops with the reference error;
* `processKind_agree` : the whole call, with the capacity of the builders;
* `processKind_eq_reference` : the same when the output fits.
-/
import YaraWorker.FallibleRuns
import YaraWorker.Matches

open FallibleRuns Columnar

namespace YaraWorker

/-! ## The reference -/

/-- The matching rules on the first `maxDataLen` bytes; a scanner error counts as no
match. -/
def referenceScan (Y : YaraX) (rules : Y.Rules) (bytes : List UInt8) : List RuleMatch :=
  match Y.scan rules (bytes.take maxDataLen) with
  | .ok results => results.map (fun r => ⟨r.identifier, r.nameSpace, r.tags⟩)
  | .error _ => []

theorem scanRules_eq_referenceScan (Y : YaraX) (rules : Y.Rules) (bytes : List UInt8) :
    scanRules Y rules bytes = referenceScan Y rules bytes := by
  unfold referenceScan
  rw [← bounded_eq_take]
  rfl

section Reference

variable (A : Arrow) (Y : YaraX) (kind : Kind) (dataCol rulesCol : A.ArrayRef)

/-- The cell of one row, on its own. -/
def referenceRow (i : ℕ) : Outcome Cell := do
  match ← operands A dataCol rulesCol i with
  | some (bytes, src) => do
      let rules ← compileOrError Y src
      pure (kind.project (referenceScan Y rules bytes))
  | none => pure .null

/-- The cells of the first `rows` rows, or the error of the first row that has
one. -/
def reference (rows : ℕ) : Outcome (List Cell) :=
  (List.range rows).mapM (referenceRow A Y kind dataCol rulesCol)

/-- The output fits: no run of rows from the top has more text than a string column
can hold. -/
def OutputFits (rows : ℕ) : Prop :=
  ∀ k ≤ rows, ∀ cells, reference A Y kind dataCol rulesCol k = .ok cells → FitsCells cells

end Reference

section Batch

variable {A : Arrow} {Y : YaraX} {kind : Kind} {dataCol rulesCol : A.ArrayRef}

/-- If every row has a cell and all cells fit, so do those of any first rows. -/
theorem outputFits_of_reference {rows : ℕ} {cells : List Cell}
    (h : reference A Y kind dataCol rulesCol rows = .ok cells) (hfits : FitsCells cells) :
    OutputFits A Y kind dataCol rulesCol rows := by
  intro k hk cells' hcells'
  have hrows : rows = k + (rows - k) := by omega
  rw [reference, hrows, List.range_add] at h
  -- the cells of the first `k` rows are a prefix of all cells
  have htake := mapM_eq_ok_of_append h
  rw [reference] at hcells'
  rw [hcells', List.length_range, Except.ok.injEq] at htake
  rw [← List.take_append_drop k cells, ← htake] at hfits
  exact fitsCells_of_append hfits

/-! ## One row -/

theorem referenceRow_of_error {i : ℕ} {e : Stop} (h : operands A dataCol rulesCol i = .error e) :
    referenceRow A Y kind dataCol rulesCol i = .error e := by
  rw [referenceRow, h]
  rfl

theorem referenceRow_of_null {i : ℕ} (h : operands A dataCol rulesCol i = .ok none) :
    referenceRow A Y kind dataCol rulesCol i = .ok .null := by
  rw [referenceRow, h]
  rfl

theorem referenceRow_of_some {i : ℕ} {bytes : List UInt8} {src : String}
    (h : operands A dataCol rulesCol i = .ok (some (bytes, src))) :
    referenceRow A Y kind dataCol rulesCol i
      = (fun rules => kind.project (referenceScan Y rules bytes)) <$> compileOrError Y src := by
  rw [referenceRow, h]
  rfl

/-- A row without NULLs that has a cell: its source compiles, and the cell is the
projection of its scan. -/
theorem referenceRow_of_not_null {i : ℕ} {cell : Cell}
    (h : referenceRow A Y kind dataCol rulesCol i = .ok cell) (hdata : A.isNull dataCol i = false)
    (hrules : A.isNull rulesCol i = false) :
    ∃ rules, compileRules Y (A.stringValue rulesCol i) = .ok rules
      ∧ cell = kind.project (scanRules Y rules (cellBytes A.toArrowArrays dataCol i)) := by
  rcases hoperands : operands A dataCol rulesCol i with e | o
  · rw [referenceRow_of_error hoperands] at h
    cases h
  · have ho := operands_of_not_null hoperands hdata hrules
    subst ho
    rw [referenceRow_of_some hoperands, compileOrError] at h
    rcases hcompile : compileRules Y (A.stringValue rulesCol i) with e | rules
    · rw [hcompile] at h
      cases h
    · rw [hcompile] at h
      cases h
      exact ⟨rules, rfl, by rw [scanRules_eq_referenceScan]⟩

/-- A loop state that has appended `cells`: the cache holds what some memo of the
compiler holds. -/
def Tracks (kind : Kind) (state : RuleCache Y × Out A) (cells : List Cell) : Prop :=
  (∃ m : Memo (compileOrError Y), state.1.Represents m) ∧ state.2.kind = kind
    ∧ state.2.cells = cells ∧ FitsCells cells

/-- **One row.**  Whatever sources came before, the loop body does what the reference
does on this row alone. -/
theorem processRow_agree {state : RuleCache Y × Out A} {cells : List Cell}
    (h : Tracks kind state cells) (i : ℕ) :
    Agree (Tracks kind) (processRow A Y dataCol rulesCol state i)
      (fillStep FitsCells .panic (referenceRow A Y kind dataCol rulesCol) cells i) := by
  obtain ⟨cache, out⟩ := state
  obtain ⟨⟨m, hm⟩, rfl, rfl, hfits⟩ := h
  rw [processRow_eq]
  rcases hoperands : operands A dataCol rulesCol i with e | _ | ⟨bytes, src⟩
  · -- an operand that cannot be read
    rw [fillStep_error (referenceRow_of_error hoperands)]
    exact Agree.stopped e
  · -- a NULL operand: the cache is not touched, and a NULL always fits
    obtain ⟨hkind, hcells⟩ := out.appendNull_spec
    have hfits' := fitsCells_append_null.mpr hfits
    rw [fillStep_ok (referenceRow_of_null hoperands), if_pos hfits']
    exact Agree.done ⟨⟨m, hm⟩, hkind, hcells, hfits'⟩
  · -- both operands: the cache returns what a fresh compilation gives
    have hget := RuleCache.get_fst hm src
    have hcache := (RuleCache.get_represents hm src).2
    have hrow : referenceRow A Y out.kind dataCol rulesCol i = _ := referenceRow_of_some hoperands
    show Agree (Tracks out.kind) (do
      let out ← out.append Y (← (cache.get src).1) bytes
      pure ((cache.get src).2, out)) _
    rw [hget]
    cases hrules : compileOrError Y src with
    | error e =>
        rw [hrules] at hrow
        rw [fillStep_error hrow]
        exact Agree.stopped e
    | ok rules =>
        have hcell : referenceRow A Y out.kind dataCol rulesCol i
            = .ok (out.kind.project (scanRules Y rules bytes)) := by
          rw [hrow, hrules, scanRules_eq_referenceScan]
          rfl
        rw [fillStep_ok hcell]
        obtain ⟨hok, hpanic⟩ := Out.append_spec hfits rules bytes
        by_cases hroom : FitsCells (out.cells ++ [out.kind.project (scanRules Y rules bytes)])
        · obtain ⟨out', happend, hkind, hcells⟩ := hok hroom
          rw [if_pos hroom]
          show Agree (Tracks out.kind) ((out.append Y rules bytes).bind _) _
          rw [happend]
          exact Agree.done ⟨⟨_, hcache⟩, hkind, hcells, hroom⟩
        · rw [if_neg hroom]
          show Agree (Tracks out.kind) ((out.append Y rules bytes).bind _) _
          rw [hpanic hroom]
          exact Agree.stopped _

/-! ## The whole batch -/

theorem tracks_new (A : Arrow) (Y : YaraX) (kind : Kind) :
    Tracks kind ((RuleCache.default : RuleCache Y), Out.new A kind) [] :=
  ⟨⟨.empty, RuleCache.default_represents⟩, Out.kind_new kind, Out.cells_new kind, Nat.zero_le _⟩

/-- **The whole call.**  It collects the reference cells in a buffer of the capacity
of the output column, and panics when they outgrow it. -/
theorem processKind_agree (V : Vgi) (kind : Kind) {params : ProcessParams}
    (hschema : params.outputSchema = onBind V kind) (batch : A.RecordBatch) :
    Agree (IsOutput A kind) (processKind A Y kind params batch)
      (fill FitsCells .panic
        (referenceRow A Y kind (A.column batch 0) (A.column batch 1))
        (List.range (A.numRows batch))) := by
  have hrun : Agree (Tracks kind)
      ((List.range (A.numRows batch)).foldlM (processRow A Y (A.column batch 0) (A.column batch 1))
        (RuleCache.default, Out.new A kind))
      ((List.range (A.numRows batch)).foldlM (fillStep FitsCells .panic
        (referenceRow A Y kind (A.column batch 0) (A.column batch 1))) []) :=
    foldlM_agree _ (fun _ _ i _ h => processRow_agree h i) (tracks_new A Y kind)
  rw [fill, ← bind_pure (List.foldlM _ _ _)]
  refine hrun.bind (fun state cells htracks => ?_)
  obtain ⟨cache, out⟩ := state
  obtain ⟨_, rfl, rfl, _⟩ := htracks
  obtain ⟨b, hb, houtput⟩ := tryNew_output V out
  show Agree _ ((A.tryNew params.outputSchema [out.finish]).mapError _) _
  rw [hschema, hb]
  exact Agree.done houtput

/-- A call succeeds exactly when every row has a cell and all cells fit. -/
theorem processKind_eq_ok_iff {V : Vgi} {kind : Kind} {params : ProcessParams}
    (hschema : params.outputSchema = onBind V kind) {batch : A.RecordBatch} :
    (∃ b, processKind A Y kind params batch = .ok b)
      ↔ ∃ cells, reference A Y kind (A.column batch 0) (A.column batch 1) (A.numRows batch)
          = .ok cells ∧ FitsCells cells := by
  rw [(processKind_agree V kind hschema batch).exists_ok_iff]
  simp only [fill_eq_ok_iff (fun _ _ => fitsCells_of_append) (show FitsCells [] from Nat.zero_le _)]
  exact Iff.rfl

/-- A call that succeeds returns the reference cells. -/
theorem processKind_ok {V : Vgi} {kind : Kind} {params : ProcessParams}
    (hschema : params.outputSchema = onBind V kind) {batch b : A.RecordBatch}
    (h : processKind A Y kind params batch = .ok b) :
    ∃ cells, reference A Y kind (A.column batch 0) (A.column batch 1) (A.numRows batch) = .ok cells
      ∧ IsOutput A kind b cells := by
  have hagree := processKind_agree V kind hschema batch (Y := Y)
  rw [h] at hagree
  obtain ⟨cells, hcells, houtput⟩ := hagree.exists_of_ok
  rw [fill_eq_ok_iff (fun _ _ => fitsCells_of_append) (Nat.zero_le _)] at hcells
  exact ⟨cells, hcells.1, houtput⟩

/-- The cell of one row of a call that succeeds. -/
theorem getElem?_processKind {V : Vgi} {kind : Kind} {params : ProcessParams}
    (hschema : params.outputSchema = onBind V kind) {batch b : A.RecordBatch}
    (h : processKind A Y kind params batch = .ok b) {i : ℕ} (hi : i < A.numRows batch) :
    ∃ cell, (kind.decode A.toArrowArrays (A.column b 0))[i]? = some cell
      ∧ referenceRow A Y kind (A.column batch 0) (A.column batch 1) i = .ok cell := by
  obtain ⟨cells, hcells, _, _, hdecode⟩ := processKind_ok hschema h
  rw [hdecode]
  exact getElem?_of_mapM_eq_ok hcells (List.getElem?_range hi)

/-- **A batch scan is its row-by-row meaning.**  When the output fits, the call with
one cache for the whole batch returns the reference cells, or stops with the error
of the first row that has one. -/
theorem processKind_eq_reference (A : Arrow) (Y : YaraX) (V : Vgi) (kind : Kind)
    (params : ProcessParams) (batch : A.RecordBatch)
    (hschema : params.outputSchema = onBind V kind)
    (hfits : OutputFits A Y kind (A.column batch 0) (A.column batch 1) (A.numRows batch)) :
    Agree (IsOutput A kind) (processKind A Y kind params batch)
      (reference A Y kind (A.column batch 0) (A.column batch 1) (A.numRows batch)) := by
  have hagree := processKind_agree V kind hschema batch (Y := Y)
  rwa [fill_eq_mapM] at hagree
  intro k cells hcells
  rw [List.take_range] at hcells
  exact hfits _ (Nat.min_le_right _ _) cells hcells

end Batch

/-! ## A run -/

/-- An engine in which every source is one rule of that name that matches
everything. -/
def echo : YaraX := .ofTables (fun _ => none) (fun source _ => .ok [⟨source, "default", [], []⟩])

theorem compileRules_echo (source : String) : compileRules echo source = .ok source :=
  compileRules_ofTables _ _ source

theorem compileOrError_echo (source : String) : compileOrError echo source = .ok source :=
  compileOrError_of_ok echo (compileRules_echo source)

theorem referenceRow_echo {dataCol rulesCol : Column} {i : ℕ} {bytes : List UInt8} {src : String}
    (h : operands columnar dataCol rulesCol i = .ok (some (bytes, src))) :
    referenceRow columnar echo .FirstRule dataCol rulesCol i = .ok (.varchar src) := by
  rw [referenceRow_of_some h, compileOrError_echo]
  rfl

/-- A source that comes back after another one and after a NULL row. -/
def repeatedBatch : Batch :=
  ⟨[], [blobColumn .Binary [some [1], some [2], none, some []],
    textColumn .Utf8 [some "r", some "s", some "s", some "r"]], 4⟩

theorem reference_repeatedBatch :
    reference columnar echo .FirstRule (columnar.column repeatedBatch 0)
      (columnar.column repeatedBatch 1) (columnar.numRows repeatedBatch)
      = .ok [.varchar "r", .varchar "s", .null, .varchar "r"] := by
  unfold reference
  rw [mapM_eq_ok_iff]
  exact .cons (referenceRow_echo (operands_columns _ _ (by decide) (by decide)))
    (.cons (referenceRow_echo (operands_columns _ _ (by decide) (by decide)))
      (.cons (referenceRow_of_null (operands_columns _ _ (by decide) (by decide)))
        (.cons (referenceRow_echo (operands_columns _ _ (by decide) (by decide))) .nil)))

theorem exists_processKind_repeatedBatch :
    ∃ b, processKind columnar echo .FirstRule (.ofSchema (onBind .named .FirstRule)) repeatedBatch
      = .ok b :=
  (processKind_eq_ok_iff (V := .named) rfl).mpr ⟨_, reference_repeatedBatch, by decide⟩

theorem processKind_eq_reference_repeated :
    ∃ b, processKind columnar echo .FirstRule
        (.ofSchema (onBind .named .FirstRule)) repeatedBatch = .ok b
      ∧ IsOutput columnar .FirstRule b [.varchar "r", .varchar "s", .null, .varchar "r"] := by
  have hagree := processKind_eq_reference columnar echo .named .FirstRule
    (.ofSchema (onBind .named .FirstRule)) repeatedBatch rfl
    (outputFits_of_reference reference_repeatedBatch (by decide))
  rw [reference_repeatedBatch] at hagree
  obtain ⟨b, hb⟩ := hagree.exists_ok_iff.mpr ⟨_, rfl⟩
  rw [hb] at hagree
  obtain ⟨_, hcells, houtput⟩ := hagree.exists_of_ok
  cases hcells
  exact ⟨b, hb, houtput⟩

end YaraWorker
