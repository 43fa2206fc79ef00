/-
# The validation scalar (`scalar/check.rs`)

`yara_check` reads its one column and never reports a compile error: a source that
does not compile is `false`.

* `YaraCheck.process_agree` : the call collects one cell for each row;
* `YaraCheck.process_of_isText` : on a VARCHAR column it always succeeds.
-/
import YaraWorker.FallibleRuns
import YaraWorker.ArrowIo
import YaraWorker.Scanning

open FallibleRuns

namespace YaraWorker.YaraCheck

/-- The schema `on_bind` publishes. -/
def onBind (V : Vgi) : Schema := V.result .Boolean

section Process

variable (A : Arrow) (Y : YaraX)

/-- The body of the loop. -/
def processRow (col : A.ArrayRef) (out : A.booleanBuilder.State) (i : ℕ) :
    Outcome A.booleanBuilder.State := do
  match ← textStr A col i with
  | none => pure (A.booleanBuilder.appendNull out)
  | some src => A.booleanBuilder.appendValue out (rulesCompile Y src)

def process (params : ProcessParams) (batch : A.RecordBatch) : Outcome A.RecordBatch := do
  let col := A.column batch 0
  let rows := A.numRows batch
  let out ← (List.range rows).foldlM (processRow A Y col) A.booleanBuilder.new
  let arr := A.booleanBuilder.finish out
  (A.tryNew params.outputSchema [arr]).mapError (fun e => .error (.runtimeError e))

/-- The cell of one row. -/
def checkRow (col : A.ArrayRef) (i : ℕ) : Outcome (Option Bool) :=
  Option.map (rulesCompile Y) <$> textStr A col i

end Process

section Rows

variable {A : Arrow} {Y : YaraX}

/-- One row appends its cell, or stops with the error of reading it. -/
theorem processRow_agree (col : A.ArrayRef) {out : A.booleanBuilder.State}
    {cells : List (Option Bool)} (h : A.booleanBuilder.contents out = cells) (i : ℕ) :
    Agree (fun out cells => A.booleanBuilder.contents out = cells) (processRow A Y col out i)
      (fillStep (fun _ => True) .panic (checkRow A Y col) cells i) := by
  unfold processRow fillStep checkRow
  rcases textStr A col i with e | _ | src
  · exact Agree.stopped e
  · exact Agree.done (h ▸ A.boolean_lawful.contents_appendNull out)
  · obtain ⟨out', hout', hcontents⟩ :=
      A.boolean_lawful.appendValue_ok out (rulesCompile Y src) trivial
    show Agree _ (A.booleanBuilder.appendValue out (rulesCompile Y src)) _
    rw [hout']
    exact Agree.done (h ▸ hcontents)

/-- An output batch: one column of booleans. -/
def IsOutput (A : Arrow) (b : A.RecordBatch) (cells : List (Option Bool)) : Prop :=
  A.numRows b = cells.length ∧ A.dataType (A.column b 0) = .Boolean
    ∧ A.cells A.booleanValue (A.column b 0) = cells

/-- **The whole call** collects one cell for each row. -/
theorem process_agree (V : Vgi) {params : ProcessParams}
    (hschema : params.outputSchema = onBind V) (batch : A.RecordBatch) :
    Agree (IsOutput A) (process A Y params batch)
      ((List.range (A.numRows batch)).mapM (checkRow A Y (A.column batch 0))) := by
  have hrun : Agree (fun out cells => A.booleanBuilder.contents out = cells)
      ((List.range (A.numRows batch)).foldlM (processRow A Y (A.column batch 0))
        A.booleanBuilder.new)
      (fill (fun _ => True) .panic (checkRow A Y (A.column batch 0))
        (List.range (A.numRows batch))) :=
    foldlM_agree _ (fun _ _ i _ h => processRow_agree _ h i) A.boolean_lawful.contents_new
  rw [fill_eq_mapM _ (fun _ _ _ => trivial)] at hrun
  rw [← bind_pure (List.mapM _ _)]
  refine hrun.bind (fun out cells hcells => ?_)
  obtain ⟨hty, hholds⟩ := A.boolean_lawful.holds_finish out
  obtain ⟨b, hb, hrows, hcolumn⟩ := V.tryNew_result hty
  show Agree _ ((A.tryNew params.outputSchema [A.booleanBuilder.finish out]).mapError _) _
  rw [hschema, onBind, hb]
  refine Agree.done ⟨?_, hcolumn ▸ hty, hcolumn ▸ hholds.trans hcells⟩
  rw [hrows, ← hcells, ← hholds, A.length_cells]

/-- The cell of one row of a call that succeeds. -/
theorem getElem?_process {V : Vgi} {params : ProcessParams}
    (hschema : params.outputSchema = onBind V) {batch b : A.RecordBatch}
    (h : process A Y params batch = .ok b) {i : ℕ} (hi : i < A.numRows batch) :
    ∃ cell, (A.cells A.booleanValue (A.column b 0))[i]? = some cell
      ∧ checkRow A Y (A.column batch 0) i = .ok cell := by
  have hagree := process_agree V hschema batch (Y := Y)
  rw [h] at hagree
  obtain ⟨cells, hcells, _, _, hread⟩ := hagree.exists_of_ok
  rw [hread]
  exact getElem?_of_mapM_eq_ok hcells (List.getElem?_range hi)

/-- The cell of a NULL row. -/
theorem checkRow_of_isNull {col : A.ArrayRef} {i : ℕ} (h : A.isNull col i = true) :
    checkRow A Y col i = .ok none := by
  rw [checkRow, textStr_of_isNull h]
  rfl

/-- The cell of a row of a VARCHAR column. -/
theorem checkRow_of_isText {col : A.ArrayRef} (hty : (A.dataType col).IsText) (i : ℕ) :
    checkRow A Y col i = .ok (if A.isNull col i then none
      else some (rulesCompile Y (A.stringValue col i))) := by
  unfold checkRow
  rcases hnull : A.isNull col i with _ | _
  · rw [textStr_of_isText hnull hty]
    rfl
  · rw [textStr_of_isNull hnull]
    rfl

/-- **On a VARCHAR column the call always succeeds**, and says of each source whether it
compiles. -/
theorem process_of_isText (V : Vgi) (params : ProcessParams)
    (hschema : params.outputSchema = onBind V) (batch : A.RecordBatch)
    (hty : (A.dataType (A.column batch 0)).IsText) :
    ∃ b, process A Y params batch = .ok b
      ∧ ∀ i < A.numRows batch, (A.cells A.booleanValue (A.column b 0))[i]?
          = some (if A.isNull (A.column batch 0) i then none
              else some (rulesCompile Y (A.stringValue (A.column batch 0) i))) := by
  have hagree := process_agree V hschema batch (Y := Y)
  have hcells := (exists_mapM_eq_ok_iff (checkRow A Y (A.column batch 0))
    (List.range (A.numRows batch))).mpr (fun i _ => ⟨_, checkRow_of_isText hty i⟩)
  obtain ⟨b, hb⟩ := hagree.exists_ok_iff.mpr hcells
  refine ⟨b, hb, fun i hi => ?_⟩
  obtain ⟨cell, hget, hcell⟩ := getElem?_process hschema hb hi
  rw [checkRow_of_isText hty] at hcell
  cases hcell
  exact hget

end Rows

end YaraWorker.YaraCheck
