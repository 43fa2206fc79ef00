/-
# Scans of a column cut into chunks

A query engine scans a column batch by batch, and every batch starts with an empty cache
and an empty builder.  `processKind_chunks` compares the calls on the chunks with one call
on the whole: where the column is cut makes no difference to the cells nor to the error
reported, and the only thing a longer batch can add is a full string builder.
-/
import YaraWorker.EngineEvents
import YaraWorker.Outcomes

open Columnar FallibleRuns

namespace YaraWorker

section Chunks

variable {A : Arrow} {Y : YaraX} {V : Vgi} {kind : Kind} {params : ProcessParams}

/-- Chunks whose rows are those of the batch have its inputs. -/
theorem scanInputs_of_scanRows {batch : A.RecordBatch} {chunks : List A.RecordBatch}
    (h : scanRows A batch = chunks.flatMap (scanRows A)) :
    scanInputs A batch = chunks.flatMap (scanInputs A) := by
  have hinputs : ∀ batch, scanInputs A batch = (scanRows A batch).map
      (fun row => Option.map (fun p => (p.1.take maxDataLen, p.2)) <$> row) := by
    intro batch
    rw [scanRows, List.map_map]
    rfl
  rw [hinputs, h, List.map_flatMap]
  exact List.flatMap_congr (fun chunk _ => (hinputs chunk).symm)

/-- The calls on the chunks, as runs of the row-wise operator. -/
theorem mapM_processKind_agree (hschema : params.outputSchema = onBind V kind)
    (chunks : List A.RecordBatch) :
    Agree (List.Forall₂ (IsOutput A kind)) (chunks.mapM (processKind A Y kind params))
      ((chunks.map (scanInputs A)).mapM (fill FitsCells .panic (scanCell Y kind))) := by
  apply mapM_agree
  rw [List.forall₂_map_right_iff, List.forall₂_same]
  exact fun chunk _ => processKind_scanInputs hschema chunk

/-- The cells of the chunks, one after another. -/
theorem flatMap_decode {bs : List A.RecordBatch} {cellss : List (List Cell)}
    (h : List.Forall₂ (IsOutput A kind) bs cellss) :
    bs.flatMap (fun b => kind.decode A.toArrowArrays (A.column b 0)) = cellss.flatten := by
  induction h with
  | nil => rfl
  | cons hb _ ih => rw [List.flatMap_cons, List.flatten_cons, ih, hb.2.2]

/-- **Cutting a column into chunks.**  Take any chunks whose rows, one after another, are
those of the batch.  If the call on the batch succeeds, so do the calls on the chunks, with
the same cells in the same order; an error it reports is the one the first failing chunk
reports.  Conversely, when the chunks succeed, or stop, the call on the batch returns their
cells, or stops in the same way, except that `yara_first_rule` may panic for want of
room. -/
theorem processKind_chunks (A : Arrow) (Y : YaraX) (V : Vgi) (kind : Kind)
    (params params' : ProcessParams) (hschema : params.outputSchema = onBind V kind)
    (hschema' : params'.outputSchema = onBind V kind) (batch : A.RecordBatch)
    (chunks : List A.RecordBatch) (hchunks : scanInputs A batch = chunks.flatMap (scanInputs A)) :
    (∀ b, processKind A Y kind params batch = .ok b →
      ∃ bs, chunks.mapM (processKind A Y kind params') = .ok bs
        ∧ kind.decode A.toArrowArrays (A.column b 0)
            = bs.flatMap (fun b => kind.decode A.toArrowArrays (A.column b 0)))
    ∧ (∀ e, processKind A Y kind params batch = .error (.error e) →
        chunks.mapM (processKind A Y kind params') = .error (.error e))
    ∧ (∀ bs, chunks.mapM (processKind A Y kind params') = .ok bs →
        (∃ b, processKind A Y kind params batch = .ok b
          ∧ kind.decode A.toArrowArrays (A.column b 0)
              = bs.flatMap (fun b => kind.decode A.toArrowArrays (A.column b 0)))
        ∨ (kind = .FirstRule ∧ processKind A Y kind params batch = .error .panic))
    ∧ ∀ s, chunks.mapM (processKind A Y kind params') = .error s →
        processKind A Y kind params batch = .error s
        ∨ (kind = .FirstRule ∧ processKind A Y kind params batch = .error .panic) := by
  have hwhole := processKind_scanInputs hschema batch (Y := Y)
  have hcalls := mapM_processKind_agree hschema' chunks (Y := Y)
  rw [hchunks, List.flatMap_def] at hwhole
  have hpanic : processKind A Y kind params batch = .error .panic →
      kind = .FirstRule ∧ processKind A Y kind params batch = .error .panic :=
    fun h => ⟨((processKind_panics_iff hschema).mp h).1, h⟩
  refine ⟨?_, ?_, ?_, ?_⟩
  · intro b hb
    rw [hb] at hwhole
    obtain ⟨cells, hcells, -, -, hdecode⟩ := hwhole.exists_of_ok
    obtain ⟨cellss, hcellss, rfl⟩ := fill_flatten_ok (fun _ _ => fitsCells_of_append)
      (fun _ _ => fitsCells_rest) fitsCells_nil hcells
    obtain ⟨bs, hbs⟩ := hcalls.exists_ok_iff.mpr ⟨cellss, hcellss⟩
    rw [hbs, hcellss] at hcalls
    obtain ⟨_, hok, houtputs⟩ := hcalls.exists_of_ok
    cases hok
    exact ⟨bs, hbs, by rw [hdecode, flatMap_decode houtputs]⟩
  · intro e he
    rw [hwhole.error_iff] at he
    rw [hcalls.error_iff]
    exact mapM_fill_of_flatten_error (fun _ _ => fitsCells_of_append)
      (fun _ _ => fitsCells_rest) fitsCells_nil (by simp) he
  · intro bs hbs
    rw [hbs] at hcalls
    obtain ⟨cellss, hcellss, houtputs⟩ := hcalls.exists_of_ok
    rw [fill_flatten_of_ok (fun _ _ => fitsCells_of_append) fitsCells_nil hcellss] at hwhole
    by_cases hfits : FitsCells cellss.flatten
    · rw [if_pos hfits] at hwhole
      obtain ⟨b, hb⟩ := hwhole.exists_ok_iff.mpr ⟨_, rfl⟩
      rw [hb] at hwhole
      obtain ⟨_, hok, -, -, hdecode⟩ := hwhole.exists_of_ok
      cases hok
      exact .inl ⟨b, hb, by rw [hdecode, flatMap_decode houtputs]⟩
    · rw [if_neg hfits] at hwhole
      exact .inr (hpanic ((hwhole.error_iff _).mpr rfl))
  · intro s hs
    rw [hcalls.error_iff] at hs
    rcases fill_flatten_of_error (fun _ _ => fitsCells_of_append)
      (fun _ _ => fitsCells_rest) fitsCells_nil hs with hstop | hstop
    · exact .inl ((hwhole.error_iff _).mpr hstop)
    · exact .inr (hpanic ((hwhole.error_iff _).mpr hstop))

end Chunks

/-! ## A run -/

/-- The first row of `repeatedBatch`. -/
def firstChunk : Batch :=
  ⟨[], [blobColumn .Binary [some [1]], textColumn .Utf8 [some "r"]], 1⟩

/-- Its other rows. -/
def otherChunk : Batch :=
  ⟨[], [blobColumn .Binary [some [2], none, some []],
    textColumn .Utf8 [some "s", some "s", some "r"]], 3⟩

/-- The rows of the two chunks are those of the batch. -/
theorem scanRows_repeatedBatch :
    scanRows columnar repeatedBatch = [firstChunk, otherChunk].flatMap (scanRows columnar) := by
  have hfirst : scanRows columnar firstChunk = _ := scanRows_columns _ _ rfl
  have hother : scanRows columnar otherChunk = _ := scanRows_columns _ _ rfl
  show _ = scanRows columnar firstChunk ++ (scanRows columnar otherChunk ++ [])
  rw [hfirst, hother]
  exact scanRows_columns _ _ rfl

theorem exists_mapM_processKind_chunks :
    ∃ bs, [firstChunk, otherChunk].mapM
      (processKind columnar echo .FirstRule (.ofSchema (onBind .named .FirstRule))) = .ok bs := by
  have hsucceeds : ∀ chunk : columnar.RecordBatch,
      (columnar.dataType (columnar.column chunk 0)).IsBytes →
      (columnar.dataType (columnar.column chunk 1)).IsText →
      FirstRulesFit columnar.toArrowArrays echo (columnar.column chunk 0)
        (columnar.column chunk 1) (columnar.numRows chunk) →
      ∃ b, processKind columnar echo .FirstRule (.ofSchema (onBind .named .FirstRule)) chunk
        = .ok b := by
    intro chunk hdata hrules hfits
    refine (processKind_succeeds_iff (V := .named) rfl).mpr ⟨fun i _ => ?_, fun _ => hfits⟩
    rw [not_rowFails_iff_of_types hdata hrules, rulesCompile, compileRules_echo]
    exact fun _ => rfl
  refine (exists_mapM_eq_ok_iff _ _).mpr (List.forall_mem_cons.mpr
    ⟨hsucceeds firstChunk (.inl rfl) (.inl rfl) ?_, List.forall_mem_singleton.mpr
      (hsucceeds otherChunk (.inl rfl) (.inl rfl) ?_)⟩)
  · unfold FirstRulesFit
    decide
  · unfold FirstRulesFit
    decide

/-- `repeatedBatch` cut after its first row. -/
theorem processKind_chunks_repeated :
    ∃ b bs, processKind columnar echo .FirstRule (.ofSchema (onBind .named .FirstRule)) repeatedBatch
        = .ok b
      ∧ [firstChunk, otherChunk].mapM
          (processKind columnar echo .FirstRule (.ofSchema (onBind .named .FirstRule))) = .ok bs
      ∧ Kind.FirstRule.decode columnar.toArrowArrays (columnar.column b 0)
          = bs.flatMap (fun b => Kind.FirstRule.decode columnar.toArrowArrays
              (columnar.column b 0)) := by
  obtain ⟨b, hb⟩ := exists_processKind_repeatedBatch
  have hchunks : scanInputs columnar repeatedBatch
      = [firstChunk, otherChunk].flatMap (scanInputs columnar) :=
    scanInputs_of_scanRows scanRows_repeatedBatch
  obtain ⟨bs, hbs, hdecode⟩ := (processKind_chunks columnar echo .named .FirstRule
    (.ofSchema (onBind .named .FirstRule)) (.ofSchema (onBind .named .FirstRule)) rfl rfl
    repeatedBatch [firstChunk, otherChunk] hchunks).1 b hb
  exact ⟨b, bs, hb, hbs, hdecode⟩

end YaraWorker
