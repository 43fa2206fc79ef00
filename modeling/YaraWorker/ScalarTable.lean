/-
# The scalar path and the table path

`yara_matches`, `yara_first_rule` and `yara_match_count` on one row of a batch
against `yara_scan` on the same operands as constants: the cells describe the rows
of the table (`scalars_describe_scan`), whatever the batch did before that row.
-/
import YaraWorker.BatchScan
import YaraWorker.TableScan

open Columnar FallibleRuns Pull

namespace YaraWorker

/-- What a cell says about the rows of `yara_scan`. -/
def Kind.Describes : Kind → List RuleMatch → Cell → Prop
  | .Matches, rows, cell => ∃ any, cell = .boolean any ∧ (any = true ↔ rows ≠ [])
  | .FirstRule, rows, cell => (cell = .null ↔ rows = [])
      ∧ ∀ first, rows.head? = some first → cell = .varchar first.rule
  | .MatchCount, rows, cell => ∃ n, cell = .int n ∧ n.toInt = rows.length ∧ 0 ≤ n.toInt

/-- A projection describes its rows, if there are not more than an `i32` can count. -/
theorem describes_project (kind : Kind) {rows : List RuleMatch} (hcount : rows.length ≤ i32Max) :
    kind.Describes rows (kind.project rows) := by
  cases kind with
  | Matches =>
      refine ⟨!rows.isEmpty, rfl, ?_⟩
      cases rows <;> simp
  | FirstRule =>
      rcases rows with _ | ⟨first, rows⟩
      · exact ⟨by simp [Kind.project], fun first hfirst => by cases hfirst⟩
      · refine ⟨by simp [Kind.project], fun first' hfirst => ?_⟩
        cases hfirst
        rfl
  | MatchCount =>
      have hn : (Int32.ofNat rows.length).toInt = rows.length := by
        refine Int32.toInt_ofNat_of_lt ?_
        unfold i32Max at hcount
        omega
      exact ⟨_, rfl, hn, by omega⟩

section Agreement

variable {A : Arrow} {Y : YaraX}

theorem length_scanRules_le (hcount : Y.BoundsRules) (rules : Y.Rules) (data : List UInt8) :
    (scanRules Y rules data).length ≤ i32Max := by
  unfold scanRules
  rcases hscan : Y.scan rules (bounded data) with e | results
  · exact Nat.zero_le _
  · rw [List.length_map]
    exact hcount rules _ results hscan

/-- **The scalars describe the table.**  Take a row without NULLs of a batch on which a
scan scalar succeeds, in any of the four column layouts, and pass its operands to
`yara_scan` as constants.  The producer is made and can be drained, and the scalar's
cell describes the rows it yields. -/
theorem scalars_describe_scan (A : Arrow) (Y : YaraX) (hcount : Y.BoundsRules) (V : Vgi)
    (kind : Kind) (params : ProcessParams) (hschema : params.outputSchema = onBind V kind)
    (batch b : A.RecordBatch) (hb : processKind A Y kind params batch = .ok b)
    (i : ℕ) (hi : i < A.numRows batch)
    (hdata : A.isNull (A.column batch 0) i = false)
    (hrules : A.isNull (A.column batch 1) i = false)
    (constants : ProcessParams) (hconst : constants.outputSchema = YaraScan.outputSchema)
    (hsrc : constants.arguments.constStr 1 = some (A.stringValue (A.column batch 1) i))
    (hbytes : PassesData constants.arguments (cellBytes A.toArrowArrays (A.column batch 0) i))
    (hfits : ∀ rules, compileRules Y (A.stringValue (A.column batch 1) i) = .ok rules →
      FitsScan (scanRules Y rules (cellBytes A.toArrowArrays (A.column batch 0) i))) :
    ∃ p rows, YaraScan.producer Y constants = .ok p
      ∧ (∃ batches, Drains (ScanProducer.nextBatch A) p batches)
      ∧ (∀ batches, Drains (ScanProducer.nextBatch A) p batches →
          batches.flatMap (decodeScan A) = rows.map some)
      ∧ ∃ cell, (kind.decode A.toArrowArrays (A.column b 0))[i]? = some cell
          ∧ kind.Describes rows cell := by
  obtain ⟨cell, hget, hcell⟩ := getElem?_processKind hschema hb hi
  obtain ⟨rules, hcompile, rfl⟩ := referenceRow_of_not_null hcell hdata hrules
  have hproducer : YaraScan.producer Y constants = .ok ⟨constants.outputSchema,
      scanRules Y rules (cellBytes A.toArrowArrays (A.column batch 0) i), false⟩ := by
    rw [YaraScan.producer_of_constants hsrc (constDataBytes_of_passesData hbytes),
      compileOrError_of_ok Y hcompile]
    rfl
  obtain ⟨b', _, hdrains, _, _, hdecode⟩ := ScanProducer.nextBatch_once (A := A)
    (p := ⟨constants.outputSchema, scanRules Y rules _, false⟩) hconst rfl (hfits rules hcompile)
  refine ⟨_, _, hproducer, ⟨_, hdrains⟩, fun batches h => ?_, _, hget,
    describes_project kind (length_scanRules_le hcount rules _)⟩
  rw [h.unique hdrains, List.flatMap_singleton, hdecode]

end Agreement

theorem echo_boundsRules : echo.BoundsRules := by
  intro rules slice results hscan
  cases hscan
  show 1 ≤ i32Max
  decide

/-- The last row of the batch, whose source came first and was evicted since. -/
theorem scalars_describe_scan_repeated :
    ∃ b cell p rows, processKind columnar echo .FirstRule
        (.ofSchema (onBind .named .FirstRule)) repeatedBatch = .ok b
      ∧ YaraScan.producer echo (.ofConstants YaraScan.outputSchema [] "r") = .ok p
      ∧ (∃ batches, Drains (ScanProducer.nextBatch columnar) p batches)
      ∧ (∀ batches, Drains (ScanProducer.nextBatch columnar) p batches →
          batches.flatMap (decodeScan columnar) = rows.map some)
      ∧ (Kind.decode columnar.toArrowArrays .FirstRule (columnar.column b 0))[3]? = some cell
      ∧ Kind.FirstRule.Describes rows cell := by
  obtain ⟨b, hb⟩ := exists_processKind_repeatedBatch
  have hsrc : columnar.stringValue (columnar.column repeatedBatch 1) 3 = "r" :=
    stringValue_textColumn .Utf8 [some "r", some "s", some "s", some "r"] (i := 3) (by decide)
  have hbytes : cellBytes columnar.toArrowArrays (columnar.column repeatedBatch 0) 3 = [] :=
    binaryValue_blobColumn .Binary [some [1], some [2], none, some []] (i := 3) (by decide)
  have hdata : columnar.isNull (columnar.column repeatedBatch 0) 3 = false :=
    isNull_blobColumn .Binary [some [1], some [2], none, some []] (i := 3) (by decide)
  have hrules : columnar.isNull (columnar.column repeatedBatch 1) 3 = false :=
    isNull_textColumn .Utf8 [some "r", some "s", some "s", some "r"] (i := 3) (by decide)
  obtain ⟨p, rows, hp, hdrains, hrows, cell, hget, hdescribes⟩ :=
    scalars_describe_scan columnar echo echo_boundsRules .named .FirstRule _ rfl repeatedBatch b hb
      3 (by decide) hdata hrules (.ofConstants YaraScan.outputSchema [] "r") rfl
      (congrArg some hsrc.symm)
      (Or.inl (congrArg some hbytes.symm)) (fun rules hrules => by
        rw [hsrc, compileRules_echo] at hrules
        cases hrules
        decide)
  exact ⟨b, cell, p, rows, hb, hp, hdrains, hrows, hget, hdescribes⟩

end YaraWorker
