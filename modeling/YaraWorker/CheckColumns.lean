/-
# Columns of `yara_check`

`yara_check` computes one cell for each row, remembers nothing and has no limit of its
own, so what can be done to its column commutes with the call, without exception.

* `process_checkInputs` : the call, on the rows as it reads them;
* `process_eq_error_iff` : its only error;
* `process_columns` : columns cut into chunks, and rows picked.
-/
import YaraWorker.CacheRuns
import YaraWorker.Check
import YaraWorker.RowWise

open Columnar FallibleRuns

namespace YaraWorker.YaraCheck

/-! ## The rows -/

/-- The rows of a batch, as the loop reads them. -/
def checkInputs (A : Arrow) (batch : A.RecordBatch) : List (Outcome (Option String)) :=
  (List.range (A.numRows batch)).map (textStr A (A.column batch 0))

/-- The cell of a row. -/
def checkCell (Y : YaraX) (input : Outcome (Option String)) : Outcome (Option Bool) :=
  Option.map (rulesCompile Y) <$> input

/-- The cells of an output batch. -/
def outCells (A : Arrow) (b : A.RecordBatch) : List (Option Bool) :=
  A.cells A.booleanValue (A.column b 0)

section Columns

variable {A : Arrow} {Y : YaraX} {V : Vgi} {params params' : ProcessParams}
  {batch b : A.RecordBatch}

/-- **The call** collects the cells of its rows. -/
theorem process_checkInputs (hschema : params.outputSchema = onBind V) (batch : A.RecordBatch) :
    Agree (IsOutput A) (process A Y params batch) ((checkInputs A batch).mapM (checkCell Y)) := by
  rw [checkInputs, List.mapM_map]
  exact process_agree V hschema batch

/-! ## Errors -/

/-- **The only error** is that of a column of another type, as soon as it has a row that its
validity buffer does not mark. -/
theorem process_eq_error_iff (hschema : params.outputSchema = onBind V) {e : Stop} :
    process A Y params batch = .error e
      ↔ ¬ (A.dataType (A.column batch 0)).IsText
        ∧ (∃ i < A.numRows batch, A.isNull (A.column batch 0) i = false)
        ∧ e = .error (.valueError ("expected a VARCHAR argument, got "
            ++ A.debug (A.dataType (A.column batch 0)))) := by
  have hrow : ∀ e i, checkRow A Y (A.column batch 0) i = .error e
      ↔ ¬ (A.dataType (A.column batch 0)).IsText ∧ A.isNull (A.column batch 0) i = false
        ∧ e = .error (.valueError ("expected a VARCHAR argument, got "
            ++ A.debug (A.dataType (A.column batch 0)))) := by
    intro e i
    by_cases hty : (A.dataType (A.column batch 0)).IsText
    · rw [checkRow_of_isText hty]
      simp [hty]
    · rcases hnull : A.isNull (A.column batch 0) i with _ | _
      · rw [checkRow, textStr_of_not_isText hnull hty]
        simp [hty, eq_comm]
      · rw [checkRow_of_isNull hnull]
        simp
  rw [(process_agree V hschema batch).error_iff]
  constructor
  · intro h
    obtain ⟨i, hi, hstop⟩ := exists_of_mapM_eq_error h
    obtain ⟨hty, hnull, he⟩ := (hrow e i).mp hstop
    exact ⟨hty, ⟨i, List.mem_range.mp hi, hnull⟩, he⟩
  · rintro ⟨hty, ⟨i, hi, hnull⟩, he⟩
    cases hrun : (List.range (A.numRows batch)).mapM (checkRow A Y (A.column batch 0)) with
    | error e' =>
        -- every row that stops, stops with the same error
        obtain ⟨j, -, hstop⟩ := exists_of_mapM_eq_error hrun
        obtain ⟨-, -, he'⟩ := (hrow e' j).mp hstop
        rw [he, he']
    | ok cells =>
        obtain ⟨cell, hcell⟩ := (exists_mapM_eq_ok_iff _ _).mp ⟨cells, hrun⟩ i
          (List.mem_range.mpr hi)
        rw [(hrow e i).mpr ⟨hty, hnull, he⟩] at hcell
        cases hcell

/-! ## Chunks and picks -/

theorem flatMap_outCells {bs : List A.RecordBatch} {cellss : List (List (Option Bool))}
    (h : List.Forall₂ (IsOutput A) bs cellss) : bs.flatMap (outCells A) = cellss.flatten := by
  induction h with
  | nil => rfl
  | cons hb _ ih => rw [List.flatMap_cons, List.flatten_cons, ih, outCells, hb.2.2]

/-- **A column cut into chunks.** -/
theorem process_chunks (hschema : params.outputSchema = onBind V)
    (hschema' : params'.outputSchema = onBind V) {chunks : List A.RecordBatch}
    (hchunks : checkInputs A batch = chunks.flatMap (checkInputs A)) :
    Agree (fun b bs => outCells A b = bs.flatMap (outCells A)) (process A Y params batch)
      (chunks.mapM (process A Y params')) := by
  have hwhole := process_checkInputs hschema batch (Y := Y)
  rw [hchunks, List.flatMap_def] at hwhole
  have hcalls : Agree (List.Forall₂ (IsOutput A)) (chunks.mapM (process A Y params'))
      ((chunks.map (checkInputs A)).mapM (fun l => l.mapM (checkCell Y))) := by
    apply mapM_agree
    rw [List.forall₂_map_right_iff, List.forall₂_same]
    exact fun chunk _ => process_checkInputs hschema' chunk
  refine ((hwhole.trans (mapM_flatten_agree _ _)).common hcalls).mono ?_
  rintro b bs ⟨cellss, ⟨_, ⟨-, -, hcells⟩, rfl⟩, houtputs⟩
  rw [flatMap_outCells houtputs]
  exact hcells

/-- **Rows picked** from a column. -/
theorem process_picks (hschema : params.outputSchema = onBind V)
    (hschema' : params'.outputSchema = onBind V) (hb : process A Y params batch = .ok b)
    {batch' : A.RecordBatch} {sel : List ℕ}
    (hpicks : Picks sel (checkInputs A batch) (checkInputs A batch')) :
    ∃ b', process A Y params' batch' = .ok b' ∧ Picks sel (outCells A b) (outCells A b') := by
  have hagree := process_checkInputs hschema batch (Y := Y)
  rw [hb] at hagree
  obtain ⟨cells, hcells, -, -, hread⟩ := hagree.exists_of_ok
  obtain ⟨cells', hcells', hpicks'⟩ := hpicks.mapM_eq_ok hcells
  have hagree' := process_checkInputs hschema' batch' (Y := Y)
  obtain ⟨b', hb'⟩ := hagree'.exists_ok_iff.mpr ⟨cells', hcells'⟩
  rw [hb', hcells'] at hagree'
  obtain ⟨_, hok, -, -, hread'⟩ := hagree'.exists_of_ok
  cases hok
  refine ⟨b', hb', ?_⟩
  rw [outCells, outCells, hread, hread']
  exact hpicks'

end Columns

/-- A batch of one VARCHAR column. -/
def sourceBatch (sources : List (Option String)) : columnar.RecordBatch :=
  (⟨[], [textColumn .Utf8 sources], sources.length⟩ : Batch)

theorem checkInputs_sourceBatch (sources : List (Option String)) :
    checkInputs columnar (sourceBatch sources) = sources.map .ok := by
  apply List.ext_getElem
  · simp [checkInputs]
    rfl
  · intro i hi hi'
    rw [List.length_map] at hi'
    simp only [checkInputs, List.getElem_map, List.getElem_range]
    exact textStr_textColumn (.inl rfl) sources hi'

/-- **The columns of `yara_check`.**  Whatever the type of its column, the call never panics:
it reports an error exactly when the column is not VARCHAR and has a row its validity buffer
does not mark.  However the column is cut, the calls on the chunks return the cells of the
call on the whole, or stop with the same error; and on rows picked from a column it accepts,
in any order and with repetitions, it returns the picked cells. -/
theorem process_columns (A : Arrow) (Y : YaraX) (V : Vgi) (params params' : ProcessParams)
    (hschema : params.outputSchema = onBind V) (hschema' : params'.outputSchema = onBind V)
    (batch : A.RecordBatch) :
    (∀ stop, process A Y params batch = .error stop
      ↔ ¬ (A.dataType (A.column batch 0)).IsText
        ∧ (∃ i < A.numRows batch, A.isNull (A.column batch 0) i = false)
        ∧ stop = .error (.valueError ("expected a VARCHAR argument, got "
            ++ A.debug (A.dataType (A.column batch 0)))))
    ∧ (∀ chunks : List A.RecordBatch, checkInputs A batch = chunks.flatMap (checkInputs A) →
        Agree (fun b bs => outCells A b = bs.flatMap (outCells A)) (process A Y params batch)
          (chunks.mapM (process A Y params')))
    ∧ ∀ b, process A Y params batch = .ok b → ∀ batch' sel,
        Picks sel (checkInputs A batch) (checkInputs A batch') →
        ∃ b', process A Y params' batch' = .ok b' ∧ Picks sel (outCells A b) (outCells A b') := by
  refine ⟨fun stop => process_eq_error_iff hschema, ?_, ?_⟩
  · intro chunks hchunks
    exact process_chunks hschema hschema' hchunks
  · intro b hb batch' sel hpicks
    exact process_picks hschema hschema' hb hpicks

/-- A column with a source that does not compile, cut after its first row. -/
theorem process_columns_cut :
    ∃ b bs, process columnar RuleCache.rejectsBad (.ofSchema (onBind .named))
        (sourceBatch [some "a", none, some "bad"]) = .ok b
      ∧ [sourceBatch [some "a"], sourceBatch [none, some "bad"]].mapM
          (process columnar RuleCache.rejectsBad (.ofSchema (onBind .named))) = .ok bs
      ∧ outCells columnar b = bs.flatMap (outCells columnar) := by
  obtain ⟨b, hb, -⟩ := process_of_isText .named (.ofSchema (onBind .named)) rfl
    (sourceBatch [some "a", none, some "bad"]) (.inl rfl) (A := columnar)
    (Y := RuleCache.rejectsBad)
  have hchunks : checkInputs columnar (sourceBatch [some "a", none, some "bad"])
      = [sourceBatch [some "a"], sourceBatch [none, some "bad"]].flatMap
          (checkInputs columnar) := by
    simp [checkInputs_sourceBatch]
  have hagree := (process_columns columnar RuleCache.rejectsBad .named
    (.ofSchema (onBind .named)) (.ofSchema (onBind .named)) rfl rfl
    (sourceBatch [some "a", none, some "bad"])).2.1 _ hchunks
  rw [hb] at hagree
  obtain ⟨bs, hbs, hcells⟩ := hagree.exists_of_ok
  exact ⟨b, bs, hb, hbs, hcells⟩

end YaraWorker.YaraCheck
