/-
# What `yara_check` says about the scan functions

On a BLOB or VARCHAR data column and a VARCHAR rules column a scan scalar should succeed
exactly when `yara_check` is true for each row that has both operands, and fail with the
diagnostic that both producers report on the same source.

* `yaraCheck_predicts` : when it does; every failure is the diagnostic of the first bad
  source, or `yara_first_rule` out of room;
* `wideBatch_overflow` : a batch on which every source compiles and `yara_first_rule`
  panics.
-/
import YaraWorker.CacheRuns
import YaraWorker.Check
import YaraWorker.RowFailures
import YaraWorker.TableScan
import YaraWorker.TableStringMatches

open Columnar FallibleRuns

namespace YaraWorker

/-! ## Rule errors on every path -/

/-- The output cell of `yara_check` for row `i` is true. -/
def YaraCheck.Accepts (A : Arrow) (checked : A.RecordBatch) (i : ℕ) : Prop :=
  (A.cells A.booleanValue (A.column checked 0))[i]? = some (some true)

/-- The source of row `i` is at fault: both operands are there, `e` is the compiler's
diagnostic of the source, and with that source and any data as constants both producers
report it too. -/
structure SourceAtFault (A : Arrow) (Y : YaraX) (dataCol rulesCol : A.ArrayRef) (i : ℕ)
    (e : RpcError) : Prop where
  present : BothPresent A.toArrowArrays dataCol rulesCol i
  diagnostic : ∃ d, Y.addSource Y.new (A.stringValue rulesCol i) = .error d
    ∧ e = .valueError ("invalid YARA rule: " ++ Y.display d)
  producers : ∀ constants bytes,
    constants.arguments.constStr 1 = some (A.stringValue rulesCol i) →
    PassesData constants.arguments bytes →
    YaraScan.producer Y constants = .error (.error e)
      ∧ YaraStringMatches.producer Y constants = .error (.error e)

section Producers

variable {A : Arrow} {Y : YaraX} {dataCol rulesCol : A.ArrayRef} {i : ℕ} {e : RpcError}
  {src : String}

/-- A mapped result ends well exactly when the source does. -/
theorem exists_map_compileOrError_iff {α : Type} (f : Y.Rules → α) :
    (∃ p, f <$> compileOrError Y src = .ok p) ↔ rulesCompile Y src = true := by
  rw [rulesCompile_eq_true_iff]
  rcases compileOrError Y src with e | rules
  · constructor
    · rintro ⟨p, hp⟩
      cases hp
    · rintro ⟨rules, hrules⟩
      cases hrules
  · exact ⟨fun _ => ⟨rules, rfl⟩, fun _ => ⟨f rules, rfl⟩⟩

/-- A row of typed columns that fails has its source at fault. -/
theorem sourceAtFault_of_rowFails (hdata : (A.dataType dataCol).IsBytes)
    (hrules : (A.dataType rulesCol).IsText) (h : RowFails A Y dataCol rulesCol i e) :
    SourceAtFault A Y dataCol rulesCol i e := by
  obtain ⟨hpresent, hcompile⟩ := (rowFails_iff_of_types hdata hrules).mp h
  refine ⟨hpresent, ?_, ?_⟩
  · obtain ⟨d, hadd, he⟩ := (compileOrError_eq_error_iff Y _ _).mp hcompile
    exact ⟨d, hadd, Stop.error.inj he⟩
  · intro constants bytes hsrc hpasses
    have hbytes := constDataBytes_of_passesData hpasses
    rw [YaraScan.producer_of_constants hsrc hbytes,
      YaraStringMatches.producer_of_constants hsrc hbytes, hcompile]
    exact ⟨rfl, rfl⟩

end Producers

/-- **`yara_check` predicts rule errors.**  On the rules column it always succeeds.

A scan scalar succeeds exactly when `yara_check` is true for each row with both operands
(the sources compile), if and only if `yara_first_rule` has room for the identifiers when
all these sources compile; the other two scalars have no such condition.  Every failure of
a scan scalar is the diagnostic of the first source at fault, which `yara_check` did not
accept and both producers report alike, except that `yara_first_rule` may run out of room
while all sources so far compile.

With the source of a row and any data as constants both producers succeed exactly when
`yara_check` is true for that row. -/
theorem yaraCheck_predicts (A : Arrow) (Y : YaraX) (V : Vgi) (batch checkBatch : A.RecordBatch)
    (hdata : (A.dataType (A.column batch 0)).IsBytes)
    (hrules : (A.dataType (A.column batch 1)).IsText)
    (hcolumn : A.column checkBatch 0 = A.column batch 1)
    (hrows : A.numRows checkBatch = A.numRows batch)
    (checkParams : ProcessParams) (hcheck : checkParams.outputSchema = YaraCheck.onBind V) :
    ∃ checked, YaraCheck.process A Y checkParams checkBatch = .ok checked
      ∧ (∀ kind params, params.outputSchema = onBind V kind →
          (((∃ b, processKind A Y kind params batch = .ok b)
              ↔ ∀ i < A.numRows batch,
                  BothPresent A.toArrowArrays (A.column batch 0) (A.column batch 1) i →
                  YaraCheck.Accepts A checked i)
            ↔ (kind = .FirstRule →
                (∀ i < A.numRows batch,
                  BothPresent A.toArrowArrays (A.column batch 0) (A.column batch 1) i →
                  rulesCompile Y (A.stringValue (A.column batch 1) i) = true) →
                FirstRulesFit A.toArrowArrays Y (A.column batch 0) (A.column batch 1)
                  (A.numRows batch)))
          ∧ ∀ stop, processKind A Y kind params batch = .error stop →
              (∃ i < A.numRows batch, ∃ e, stop = .error e
                ∧ SourceAtFault A Y (A.column batch 0) (A.column batch 1) i e
                ∧ ¬ YaraCheck.Accepts A checked i
                ∧ ∀ j < i, BothPresent A.toArrowArrays (A.column batch 0) (A.column batch 1) j →
                    YaraCheck.Accepts A checked j)
              ∨ (stop = .panic ∧ kind = .FirstRule ∧ ∃ k ≤ A.numRows batch,
                  (∀ j < k, BothPresent A.toArrowArrays (A.column batch 0) (A.column batch 1) j →
                    YaraCheck.Accepts A checked j)
                  ∧ ¬ FirstRulesFit A.toArrowArrays Y (A.column batch 0) (A.column batch 1) k))
      ∧ ∀ i < A.numRows batch, A.isNull (A.column batch 1) i = false → ∀ constants bytes,
          constants.arguments.constStr 1 = some (A.stringValue (A.column batch 1) i) →
          PassesData constants.arguments bytes →
          ((∃ p, YaraScan.producer Y constants = .ok p) ↔ YaraCheck.Accepts A checked i)
          ∧ ((∃ p, YaraStringMatches.producer Y constants = .ok p)
            ↔ YaraCheck.Accepts A checked i) := by
  rw [← hcolumn] at hrules
  obtain ⟨checked, hchecked, hcells⟩ := YaraCheck.process_of_isText V checkParams hcheck checkBatch
    hrules (Y := Y)
  rw [hcolumn] at hrules hcells
  rw [hrows] at hcells
  -- a row with a source is true in the output of `yara_check` when the source compiles
  have htrue : ∀ i < A.numRows batch, A.isNull (A.column batch 1) i = false →
      (YaraCheck.Accepts A checked i
        ↔ rulesCompile Y (A.stringValue (A.column batch 1) i) = true) := by
    intro i hi hnull
    rw [YaraCheck.Accepts, hcells i hi, hnull]
    simp
  -- so it is true for a row with both operands when the row does not fail
  have haccepts : ∀ i < A.numRows batch,
      (∀ e, ¬ RowFails A Y (A.column batch 0) (A.column batch 1) i e)
        ↔ (BothPresent A.toArrowArrays (A.column batch 0) (A.column batch 1) i →
            YaraCheck.Accepts A checked i) := by
    intro i hi
    rw [not_rowFails_iff_of_types hdata hrules]
    exact forall_congr' (fun hpresent => (htrue i hi hpresent.2).symm)
  refine ⟨checked, hchecked, fun kind params hschema => ⟨?_, ?_⟩, ?_⟩
  · have hall : (∀ i < A.numRows batch,
        ∀ e, ¬ RowFails A Y (A.column batch 0) (A.column batch 1) i e)
          ↔ ∀ i < A.numRows batch,
            BothPresent A.toArrowArrays (A.column batch 0) (A.column batch 1) i →
            YaraCheck.Accepts A checked i :=
      forall_congr' (fun i => forall_congr' (haccepts i))
    rw [processKind_succeeds_iff hschema, ← hall]
    simp only [← not_rowFails_iff_of_types hdata hrules]
    constructor
    · intro h hkind hrowsOk
      exact (h.mpr hrowsOk).2 hkind
    · intro h
      exact ⟨fun hboth => hboth.1, fun hrowsOk => ⟨hrowsOk, fun hkind => h hkind hrowsOk⟩⟩
  · intro stop hstop
    cases stop with
    | error e =>
        obtain ⟨i, hi, hfails, hbefore, -⟩ := (processKind_reports_iff hschema).mp hstop
        have hfault := sourceAtFault_of_rowFails hdata hrules hfails
        refine .inl ⟨i, hi, e, rfl, hfault, ?_, fun j hj => ?_⟩
        · intro hi'
          exact (haccepts i hi).mpr (fun _ => hi') e hfails
        · exact (haccepts j (by omega)).mp (hbefore j hj)
    | panic =>
        obtain ⟨hkind, k, hk, hbefore, hfull⟩ := (processKind_panics_iff hschema).mp hstop
        refine .inr ⟨rfl, hkind, k, hk, fun j hj => ?_, hfull⟩
        exact (haccepts j (by omega)).mp (hbefore j hj)
  · intro i hi hnull constants bytes hsrc hpasses
    have hbytes := constDataBytes_of_passesData hpasses
    rw [YaraScan.producer_of_constants hsrc hbytes,
      YaraStringMatches.producer_of_constants hsrc hbytes, exists_map_compileOrError_iff,
      exists_map_compileOrError_iff, htrue i hi hnull]
    exact ⟨Iff.rfl, Iff.rfl⟩

/-! ## A batch with good and bad sources -/

/-- A good source, and a bad one beside a NULL. -/
def skippedBatch : Batch :=
  ⟨[], [blobColumn .Binary [some [1], none], textColumn .Utf8 [some "a", some "bad"]], 2⟩

/-- The same rows, and the bad source beside data. -/
def mixedBatch : Batch :=
  ⟨[], [blobColumn .Binary [some [1], none, some [0]],
    textColumn .Utf8 [some "a", some "bad", some "bad"]], 3⟩

/-- With a constant the engine accepts every source but one. -/
theorem exists_producer_rejectsBad_iff (src : String) :
    (∃ p, YaraScan.producer RuleCache.rejectsBad (.ofConstants YaraScan.outputSchema [7] src) = .ok p)
      ↔ src ≠ "bad" := by
  rw [YaraScan.producer_of_constants rfl rfl, exists_map_compileOrError_iff]
  by_cases hbad : src = "bad"
  · subst hbad
    decide
  · have hcompile : compileRules RuleCache.rejectsBad src = .ok src := by
      refine (compileRules_ofTables _ _ src).trans ?_
      rw [if_neg hbad]
      rfl
    rw [rulesCompile, hcompile]
    exact ⟨fun _ => hbad, fun _ => rfl⟩

/-- The bad source does no harm beside a NULL; beside data it stops the scan with the
diagnostic that both producers report. -/
theorem yaraCheck_predicts_mixed :
    (∃ b, processKind columnar RuleCache.rejectsBad .Matches (.ofSchema (onBind .named .Matches))
        skippedBatch = .ok b)
    ∧ processKind columnar RuleCache.rejectsBad .Matches (.ofSchema (onBind .named .Matches))
        mixedBatch = .error (.error (.valueError ("invalid YARA rule: " ++ "syntax error")))
    ∧ YaraScan.producer RuleCache.rejectsBad (.ofConstants YaraScan.outputSchema [7] "bad")
        = .error (.error (.valueError ("invalid YARA rule: " ++ "syntax error")))
    ∧ YaraStringMatches.producer RuleCache.rejectsBad
        (.ofConstants YaraStringMatches.outputSchema [7] "bad")
        = .error (.error (.valueError ("invalid YARA rule: " ++ "syntax error"))) := by
  refine ⟨?_, ?_⟩
  · obtain ⟨checked, -, hscalars, hproducers⟩ := yaraCheck_predicts columnar RuleCache.rejectsBad
      .named skippedBatch ⟨[], [columnar.column skippedBatch 1], 2⟩ (.inl rfl) (.inl rfl) rfl rfl
      (.ofSchema (YaraCheck.onBind .named)) rfl
    have hiff := (hscalars .Matches (.ofSchema (onBind .named .Matches)) rfl).1.mpr
      (fun hkind => by cases hkind)
    have hgood : YaraCheck.Accepts columnar checked 0 := by
      have hsrc : columnar.stringValue (columnar.column skippedBatch 1) 0 = "a" := by decide
      have hnull : columnar.isNull (columnar.column skippedBatch 1) 0 = false := by decide
      exact (hproducers 0 (by decide) hnull (.ofConstants YaraScan.outputSchema [7] "a") [7]
        (congrArg some hsrc.symm) (.inl rfl)).1.mp
        ((exists_producer_rejectsBad_iff "a").mpr (by decide))
    refine hiff.mpr (fun i hi hpresent => ?_)
    have hnull : columnar.isNull (columnar.column skippedBatch 0) 1 = true := by decide
    rcases i with _ | _ | i
    · exact hgood
    · rw [hpresent.1] at hnull
      cases hnull
    · exact absurd (show i + 2 < 2 from hi) (by omega)
  · obtain ⟨checked, -, hscalars, hproducers⟩ := yaraCheck_predicts columnar RuleCache.rejectsBad
      .named mixedBatch ⟨[], [columnar.column mixedBatch 1], 3⟩ (.inl rfl) (.inl rfl) rfl rfl
      (.ofSchema (YaraCheck.onBind .named)) rfl
    have hiff := (hscalars .Matches (.ofSchema (onBind .named .Matches)) rfl).1.mpr
      (fun hkind => by cases hkind)
    have hgood : columnar.stringValue (columnar.column mixedBatch 1) 0 = "a" := by decide
    have hnull : columnar.isNull (columnar.column mixedBatch 0) 1 = true := by decide
    have hbad : columnar.stringValue (columnar.column mixedBatch 1) 2 = "bad" := by decide
    have hpresent : BothPresent columnar.toArrowArrays (columnar.column mixedBatch 0)
        (columnar.column mixedBatch 1) 2 := ⟨by decide, by decide⟩
    have hrejected : ¬ YaraCheck.Accepts columnar checked 2 := by
      rw [← (hproducers 2 (by decide) hpresent.2 (.ofConstants YaraScan.outputSchema [7] "bad") [7]
        (congrArg some hbad.symm) (.inl rfl)).1, exists_producer_rejectsBad_iff]
      exact not_not.mpr rfl
    rcases hrun : processKind columnar RuleCache.rejectsBad .Matches
      (.ofSchema (onBind .named .Matches)) mixedBatch with stop | b
    · rcases (hscalars .Matches (.ofSchema (onBind .named .Matches)) rfl).2 stop hrun with
        ⟨i, hi, e, rfl, hfault, -, -⟩ | ⟨-, hkind, -⟩
      · obtain ⟨d, hadd, rfl⟩ := hfault.diagnostic
        -- the row at fault is the last one
        rcases i with _ | _ | _ | i
        · rw [hgood] at hadd
          cases hadd
        · have hdata := hfault.present.1
          rw [hnull] at hdata
          cases hdata
        · have hproducer := fun schema => hfault.producers (.ofConstants schema [7] "bad") [7]
            (congrArg some hbad.symm) (.inl rfl)
          rw [hbad] at hadd
          cases hadd
          exact ⟨rfl, (hproducer _).1, (hproducer _).2⟩
        · exact absurd (show i + 3 < 3 from hi) (by omega)
      · cases hkind
    · exact absurd (hiff.mp ⟨b, hrun⟩ 2 (by decide) hpresent) hrejected

/-! ## An output that does not fit -/

/-- The rule `name` that matches everything. -/
def trueRule (name : String) : String := "rule " ++ name ++ " { condition: true }"

/-- The name in such a rule. -/
def trueRuleName (src : String) : Option String :=
  let name := String.ofList ((src.toList.drop 5).takeWhile (· ≠ ' '))
  if src = trueRule name then some name else none

/-- An engine that knows these rules and no others. -/
def trueRules : YaraX :=
  .ofTables (fun src => if (trueRuleName src).isSome then none else some "syntax error")
    (fun src _ => .ok ((trueRuleName src).map (fun name => ⟨name, "default", [], []⟩)).toList)

/-- Empty data and the rule `name` in each of `n` rows. -/
def wideBatch (name : String) (n : ℕ) : Batch :=
  ⟨[], [blobColumn .Binary (List.replicate n (some [])),
    textColumn .LargeUtf8 (List.replicate n (some (trueRule name)))], n⟩

section Wide

variable {name : String} {n i : ℕ}

theorem trueRuleName_trueRule (hname : ' ' ∉ name.toList) :
    trueRuleName (trueRule name) = some name := by
  have htail : (trueRule name).toList.drop 5 = name.toList ++ " { condition: true }".toList := by
    rw [trueRule, String.toList_append, String.toList_append, List.append_assoc]
    exact List.drop_left' rfl
  have hhead : (name.toList ++ " { condition: true }".toList).takeWhile (· ≠ ' ')
      = name.toList := by
    rw [List.takeWhile_append_of_pos]
    · exact List.append_nil _
    · intro c hc
      rw [decide_eq_true_eq]
      rintro rfl
      exact hname hc
  unfold trueRuleName
  rw [htail, hhead, String.ofList_toList, if_pos rfl]

theorem compileRules_trueRule (hname : ' ' ∉ name.toList) :
    compileRules trueRules (trueRule name) = .ok (trueRule name) := by
  refine (compileRules_ofTables _ _ _).trans ?_
  rw [trueRuleName_trueRule hname]
  rfl

theorem bothPresent_wideBatch (name : String) (hi : i < n) :
    BothPresent columnar.toArrowArrays (columnar.column (wideBatch name n) 0)
      (columnar.column (wideBatch name n) 1) i := by
  constructor
  · refine (isNull_blobColumn .Binary (List.replicate n (some [])) (by simpa using hi)).trans ?_
    rw [List.getElem_replicate]
    rfl
  · refine (isNull_textColumn .LargeUtf8 (List.replicate n (some (trueRule name)))
      (by simpa using hi)).trans ?_
    rw [List.getElem_replicate]
    rfl

theorem stringValue_wideBatch (hi : i < n) :
    columnar.stringValue (columnar.column (wideBatch name n) 1) i = trueRule name := by
  refine (stringValue_textColumn .LargeUtf8 (List.replicate n (some (trueRule name)))
    (by simpa using hi)).trans ?_
  rw [List.getElem_replicate]
  rfl

/-- Every source compiles. -/
theorem rulesCompile_wideBatch (hname : ' ' ∉ name.toList) (hi : i < n) :
    rulesCompile trueRules (columnar.stringValue (columnar.column (wideBatch name n) 1) i)
      = true := by
  rw [stringValue_wideBatch hi, rulesCompile, compileRules_trueRule hname]
  rfl

theorem firstRuleLen_wideBatch (hname : ' ' ∉ name.toList) (hi : i < n) :
    firstRuleLen columnar.toArrowArrays trueRules (columnar.column (wideBatch name n) 0)
      (columnar.column (wideBatch name n) 1) i = name.utf8ByteSize := by
  obtain ⟨hdata, hrules⟩ := bothPresent_wideBatch name hi
  have hscan : ∀ bytes, scanRules trueRules (trueRule name) bytes = [⟨name, "default", []⟩] := by
    intro bytes
    have houtcome : trueRules.scan (trueRule name) (bounded bytes)
        = .ok ((trueRuleName (trueRule name)).map
          (fun name => (⟨name, "default", [], []⟩ : Rule))).toList := rfl
    unfold scanRules
    rw [houtcome, trueRuleName_trueRule hname]
    rfl
  unfold firstRuleLen
  rw [hdata, hrules, stringValue_wideBatch hi, compileRules_trueRule hname]
  simp only [hscan]
  rfl

/-- `yara_check` is true for every row. -/
theorem process_wideBatch (hname : ' ' ∉ name.toList) (n : ℕ) :
    ∃ checked, YaraCheck.process columnar trueRules (.ofSchema (YaraCheck.onBind .named))
        ⟨[], [columnar.column (wideBatch name n) 1], n⟩ = .ok checked
      ∧ ∀ i < n, YaraCheck.Accepts columnar checked i := by
  obtain ⟨checked, hchecked, hcells⟩ := YaraCheck.process_of_isText (A := columnar)
    (Y := trueRules) .named (.ofSchema (YaraCheck.onBind .named)) rfl
    ⟨[], [columnar.column (wideBatch name n) 1], n⟩ (.inr rfl)
  refine ⟨checked, hchecked, fun i hi => ?_⟩
  have hnull : columnar.isNull (columnar.column
      ⟨[], [columnar.column (wideBatch name n) 1], n⟩ 0) i = false :=
    (bothPresent_wideBatch name hi).2
  rw [YaraCheck.Accepts, hcells i hi, hnull]
  exact congrArg (fun b => some (some b)) (rulesCompile_wideBatch hname hi)

/-- When the identifiers of the rows outgrow the string column, the call panics. -/
theorem processKind_wideBatch (hname : ' ' ∉ name.toList) (hn : i32Max < n * name.utf8ByteSize) :
    processKind columnar trueRules .FirstRule (.ofSchema (onBind .named .FirstRule))
      (wideBatch name n) = .error .panic := by
  refine (processKind_panics_iff (V := .named) rfl).mpr ⟨rfl, n, le_refl n, fun j hj => ?_, ?_⟩
  · exact (not_rowFails_iff_of_types (.inl rfl) (.inr rfl)).mpr
      (fun _ => rulesCompile_wideBatch hname hj)
  · unfold FirstRulesFit
    rw [List.map_congr_left (fun i hi => firstRuleLen_wideBatch hname (List.mem_range.mp hi)),
      List.map_const', List.length_range, List.sum_replicate_nat]
    omega

end Wide

/-- An identifier of `n` letters. -/
def longName (n : ℕ) : String := String.ofList (List.replicate n 'a')

theorem not_mem_longName (n : ℕ) : ' ' ∉ (longName n).toList := by
  rw [longName, String.toList_ofList]
  intro hspace
  exact absurd (List.eq_of_mem_replicate hspace) (by decide)

theorem utf8ByteSize_longName (n : ℕ) : (longName n).utf8ByteSize = n := by
  induction n with
  | zero => rfl
  | succ n ih =>
      have hsplit : longName (n + 1) = "a" ++ longName n := by
        rw [longName, List.replicate_succ, ← List.singleton_append, String.ofList_append]
        rfl
      have ha : "a".utf8ByteSize = 1 := by decide
      rw [hsplit, String.utf8ByteSize_append, ih, ha]
      omega

/-- **An overflow.**  On 2048 rows of empty data, each with the one rule of a name of `2 ^ 20`
letters, `yara_check` is true for every row and `yara_first_rule` panics. -/
theorem wideBatch_overflow :
    (∃ checked, YaraCheck.process columnar trueRules (.ofSchema (YaraCheck.onBind .named))
        ⟨[], [columnar.column (wideBatch (longName (2 ^ 20)) 2048) 1], 2048⟩ = .ok checked
      ∧ ∀ i < 2048, YaraCheck.Accepts columnar checked i)
    ∧ processKind columnar trueRules .FirstRule (.ofSchema (onBind .named .FirstRule))
        (wideBatch (longName (2 ^ 20)) 2048) = .error .panic := by
  have hname := not_mem_longName (2 ^ 20)
  have hlen : i32Max < 2048 * (longName (2 ^ 20)).utf8ByteSize := by
    rw [utf8ByteSize_longName]
    decide
  exact ⟨process_wideBatch hname 2048, processKind_wideBatch hname hlen⟩

end YaraWorker
