/-
# How often a scan compiles

The cache remembers one source, so a call that succeeds compiles the sources of its rows
with the neighbouring repetitions dropped.

* `compile_cost` : the sources compiled and the slices scanned, in order;
* `chunk_cost` : what it costs to cut a column into chunks.
-/
import YaraWorker.Chunks
import YaraWorker.Neighbours

open Columnar FallibleRuns Neighbours

namespace YaraWorker

/-! ## The calls of rows without errors -/

namespace EngineEvent

variable {Y : YaraX}

/-- The source of a compilation. -/
def compiled? : EngineEvent Y → Option String
  | compile src => some src
  | scan _ _ => none

/-- The rules and the slice of a scan. -/
def scanned? : EngineEvent Y → Option (Y.Rules × List UInt8)
  | compile _ => none
  | scan rules slice => some (rules, slice)

end EngineEvent

open EngineEvent

/-- The rows with both operands. -/
def presentRows (rows : List ScanRow) : List (List UInt8 × String) :=
  rows.filterMap (fun row => match row with
    | .ok o => o
    | .error _ => none)

/-- A row that can be read and whose source compiles. -/
def Scannable (Y : YaraX) (row : ScanRow) : Prop :=
  ∃ o, row = .ok o ∧ ∀ p, o = some p → ∃ rules, compileOrError Y p.2 = .ok rules

section Rows

variable {Y : YaraX} {rows : List ScanRow}

/-- After the source `last`, the sources compiled are those that differ from the one before
them. -/
theorem compiled_scanEvents_some (last : String) (h : ∀ row ∈ rows, Scannable Y row) :
    last :: (scanEvents Y (some last) rows).filterMap compiled?
      = ((presentRows rows).map Prod.snd).destutter' (· ≠ ·) last := by
  induction rows generalizing last with
  | nil => rfl
  | cons row rows ih =>
      rw [List.forall_mem_cons] at h
      obtain ⟨⟨o, rfl, hrules⟩, hrows⟩ := h
      rcases o with _ | ⟨bytes, src⟩
      · exact ih last hrows
      · obtain ⟨rules, hcompile⟩ := hrules _ rfl
        have hpresent : (presentRows (.ok (some (bytes, src)) :: rows)).map Prod.snd
            = src :: (presentRows rows).map Prod.snd := rfl
        rw [scanEvents_of_ok hcompile, hpresent, List.destutter'_cons, ← ih src hrows]
        by_cases hlast : last = src
        · rw [if_pos (congrArg some hlast), if_neg (not_not.mpr hlast), ← ih last hrows, hlast]
          rfl
        · rw [if_neg (fun h => hlast (Option.some.inj h)), if_pos hlast]
          rfl

/-- From a fresh cache. -/
theorem compiled_scanEvents (h : ∀ row ∈ rows, Scannable Y row) :
    (scanEvents Y none rows).filterMap compiled?
      = ((presentRows rows).map Prod.snd).destutter (· ≠ ·) := by
  induction rows with
  | nil => rfl
  | cons row rows ih =>
      rw [List.forall_mem_cons] at h
      obtain ⟨⟨o, rfl, hrules⟩, hrows⟩ := h
      rcases o with _ | ⟨bytes, src⟩
      · exact ih hrows
      · obtain ⟨rules, hcompile⟩ := hrules _ rfl
        rw [scanEvents_of_ok hcompile]
        exact compiled_scanEvents_some src hrows

/-- Each row with both operands is scanned once. -/
theorem scanned_scanEvents (last : Option String) (h : ∀ row ∈ rows, Scannable Y row) :
    List.Forall₂ (fun p call => ∃ rules, compileOrError Y p.2 = .ok rules
        ∧ call = (rules, p.1.take maxDataLen))
      (presentRows rows) ((scanEvents Y last rows).filterMap scanned?) := by
  induction rows generalizing last with
  | nil => exact .nil
  | cons row rows ih =>
      rw [List.forall_mem_cons] at h
      obtain ⟨⟨o, rfl, hrules⟩, hrows⟩ := h
      rcases o with _ | ⟨bytes, src⟩
      · exact ih last hrows
      · obtain ⟨rules, hcompile⟩ := hrules _ rfl
        have hskip : (if last = some src then [] else [EngineEvent.compile (Y := Y) src]).filterMap
            scanned? = [] := by
          split <;> rfl
        rw [scanEvents_of_ok hcompile, List.filterMap_append, hskip, List.nil_append]
        exact .cons ⟨rules, hcompile, rfl⟩ (ih (some src) hrows)

theorem presentRows_flatMap {α : Type} (f : α → List ScanRow) (l : List α) :
    (presentRows (l.flatMap f)).map Prod.snd
      = (l.map (fun a => (presentRows (f a)).map Prod.snd)).flatten := by
  induction l with
  | nil => rfl
  | cons a l ih =>
      rw [List.flatMap_cons, presentRows, List.filterMap_append, List.map_append, List.map_cons,
        List.flatten_cons, ← ih]
      rfl

end Rows

/-! ## The cost of a call -/

section Cost

variable {A : Arrow} {Y : YaraX} {V : Vgi} {kind : Kind} {params : ProcessParams}
  {batch b : A.RecordBatch}

/-- The rows of a call that succeeds. -/
theorem scannable_of_ok (hschema : params.outputSchema = onBind V kind)
    (h : processKind A Y kind params batch = .ok b) : ∀ row ∈ scanRows A batch, Scannable Y row := by
  obtain ⟨cells, hcells, -⟩ := processKind_ok hschema h
  intro row hrow
  obtain ⟨i, hi, rfl⟩ := List.mem_map.mp hrow
  obtain ⟨cell, hcell⟩ := (exists_mapM_eq_ok_iff _ _).mp ⟨cells, hcells⟩ i hi
  rcases hoperands : operands A (A.column batch 0) (A.column batch 1) i with e | o
  · rw [referenceRow_of_error hoperands] at hcell
    cases hcell
  · refine ⟨o, rfl, ?_⟩
    rintro ⟨bytes, src⟩ rfl
    rw [referenceRow_of_some hoperands] at hcell
    cases hrules : compileOrError Y src with
    | error e =>
        rw [hrules] at hcell
        cases hcell
    | ok rules => exact ⟨rules, rfl⟩

/-- The sources a call compiles. -/
def compiledSources (A : Arrow) (Y : YaraX) (kind : Kind) (params : ProcessParams)
    (batch : A.RecordBatch) : List String :=
  (engineEvents A Y kind params batch).filterMap compiled?

/-- The sources of the rows with both operands. -/
def rowSources (A : Arrow) (batch : A.RecordBatch) : List String :=
  (presentRows (scanRows A batch)).map Prod.snd

theorem compiledSources_of_ok (hschema : params.outputSchema = onBind V kind)
    (h : processKind A Y kind params batch = .ok b) :
    compiledSources A Y kind params batch = (rowSources A batch).destutter (· ≠ ·) := by
  rw [compiledSources, engineEvents_of_ok h, compiled_scanEvents (scannable_of_ok hschema h)]
  rfl

/-- **The cost of a call** that succeeds.  It compiles the sources of its rows with the
neighbouring repetitions dropped, so in a column that is sorted, whatever the order, each
source once; and it scans each row with both operands once, in order, on the first
`maxDataLen` bytes of its data with the rules of its source. -/
theorem compile_cost (A : Arrow) (Y : YaraX) (V : Vgi) (kind : Kind) (params : ProcessParams)
    (hschema : params.outputSchema = onBind V kind) (batch b : A.RecordBatch)
    (hb : processKind A Y kind params batch = .ok b) :
    compiledSources A Y kind params batch = (rowSources A batch).destutter (· ≠ ·)
    ∧ (∀ r : String → String → Prop, Std.Antisymm r → (rowSources A batch).Pairwise r →
        compiledSources A Y kind params batch = (rowSources A batch).dedup)
    ∧ List.Forall₂ (fun p call => ∃ rules, compileOrError Y p.2 = .ok rules
          ∧ call = (rules, p.1.take maxDataLen))
        (presentRows (scanRows A batch))
        ((engineEvents A Y kind params batch).filterMap scanned?) := by
  have hcompiled := compiledSources_of_ok hschema hb
  refine ⟨hcompiled, ?_, ?_⟩
  · intro r hr hsorted
    rw [hcompiled, hsorted.destutter_eq_dedup]
  · rw [engineEvents_of_ok hb]
    exact scanned_scanEvents none (scannable_of_ok hschema hb)

/-- **The cost of chunks.**  When a column is cut into chunks, the calls on the chunks
compile at least as often as one call on the whole, and at most once more for each chunk. -/
theorem chunk_cost (A : Arrow) (Y : YaraX) (V : Vgi) (kind : Kind) (params params' : ProcessParams)
    (hschema : params.outputSchema = onBind V kind)
    (hschema' : params'.outputSchema = onBind V kind) (batch b : A.RecordBatch)
    (hb : processKind A Y kind params batch = .ok b) (chunks bs : List A.RecordBatch)
    (hbs : chunks.mapM (processKind A Y kind params') = .ok bs)
    (hchunks : scanRows A batch = chunks.flatMap (scanRows A)) :
    (compiledSources A Y kind params batch).length
        ≤ (chunks.map (fun chunk => (compiledSources A Y kind params' chunk).length)).sum
    ∧ (chunks.map (fun chunk => (compiledSources A Y kind params' chunk).length)).sum
        ≤ (compiledSources A Y kind params batch).length + chunks.length := by
  have hwhole : rowSources A batch = (chunks.map (rowSources A)).flatten := by
    rw [rowSources, hchunks, presentRows_flatMap]
    rfl
  have hcosts : chunks.map (fun chunk => (compiledSources A Y kind params' chunk).length)
      = (chunks.map (rowSources A)).map (fun srcs => (srcs.destutter (· ≠ ·)).length) := by
    rw [List.map_map]
    apply List.map_congr_left
    intro chunk hchunk
    obtain ⟨b', hb'⟩ := (exists_mapM_eq_ok_iff _ _).mp ⟨bs, hbs⟩ chunk hchunk
    rw [compiledSources_of_ok hschema' hb']
    rfl
  rw [compiledSources_of_ok hschema hb, hwhole, hcosts]
  refine ⟨length_destutter_flatten_le _, ?_⟩
  have hle := sum_length_destutter_le (chunks.map (rowSources A))
  rwa [List.length_map] at hle

end Cost

/-! ## A run -/

theorem rowSources_repeatedBatch : rowSources columnar repeatedBatch = ["r", "s", "r"] := by
  have hrows : scanRows columnar repeatedBatch = _ := scanRows_columns _ _ rfl
  exact congrArg (fun rows => (presentRows rows).map Prod.snd) hrows

/-- A source that comes back is compiled again. -/
theorem compile_cost_repeated :
    compiledSources columnar echo .FirstRule (.ofSchema (onBind .named .FirstRule)) repeatedBatch
      = ["r", "s", "r"] := by
  obtain ⟨b, hb⟩ := exists_processKind_repeatedBatch
  rw [(compile_cost columnar echo .named .FirstRule (.ofSchema (onBind .named .FirstRule)) rfl
    repeatedBatch b hb).1, rowSources_repeatedBatch]
  decide

/-- Cut after its first row, the batch costs no more: the source that comes next is another
one. -/
theorem chunk_cost_repeated :
    (compiledSources columnar echo .FirstRule (.ofSchema (onBind .named .FirstRule))
        repeatedBatch).length
      ≤ ([firstChunk, otherChunk].map (fun chunk => (compiledSources columnar echo .FirstRule
          (.ofSchema (onBind .named .FirstRule)) chunk).length)).sum
    ∧ ([firstChunk, otherChunk].map (fun chunk => (compiledSources columnar echo .FirstRule
        (.ofSchema (onBind .named .FirstRule)) chunk).length)).sum
      ≤ (compiledSources columnar echo .FirstRule (.ofSchema (onBind .named .FirstRule))
          repeatedBatch).length + 2 := by
  obtain ⟨b, hb⟩ := exists_processKind_repeatedBatch
  obtain ⟨bs, hbs⟩ := exists_mapM_processKind_chunks
  exact chunk_cost columnar echo .named .FirstRule _ _ rfl rfl repeatedBatch b hb
    [firstChunk, otherChunk] bs hbs scanRows_repeatedBatch

end YaraWorker
