/-
# Rows in, rows out

Both producers encode all their rows into the columns of one batch, emit it once,
and the batch decodes to the rows (`producers_emit_once`).  The tags of a row are
flattened into one child column and cut out of it again by the list offsets.
-/
import YaraWorker.Columnar
import YaraWorker.TableScan
import YaraWorker.TableStringMatches

open Columnar Pull

namespace YaraWorker

/-- **Rows are encoded faithfully and emitted once.**  On a fresh producer with the
published schema, and rows that fit the columns, the first call returns one batch
and every later call `none`; the batch has one row for each row, its columns have
that length, and it decodes to the rows in order, each with its own tags. -/
theorem producers_emit_once (A : Arrow) :
    (∀ rows : List RuleMatch, FitsScan rows →
      ∃ b, (∀ n, calls (ScanProducer.nextBatch A) (n + 1) ⟨YaraScan.outputSchema, rows, false⟩
          = .ok (some b) :: List.replicate n (.ok none))
        ∧ A.numRows b = rows.length ∧ (∀ i < 3, A.len (A.column b i) = rows.length)
        ∧ decodeScan A b = rows.map some)
    ∧ (∀ rows : List StringMatch, FitsStrings rows → (∀ m ∈ rows, m.offset.toNat < 2 ^ 63) →
      ∃ b, (∀ n, calls (StringMatchProducer.nextBatch A) (n + 1)
          ⟨YaraStringMatches.outputSchema, rows, false⟩
          = .ok (some b) :: List.replicate n (.ok none))
        ∧ A.numRows b = rows.length ∧ (∀ i < 4, A.len (A.column b i) = rows.length)
        ∧ decodeStringMatches A b
          = rows.map (fun m => some ⟨m.rule, m.identifier, m.offset.toNat, m.matched⟩)) := by
  constructor
  · intro rows hfits
    obtain ⟨b, hcalls, _, hspec⟩ := ScanProducer.nextBatch_once (A := A)
      (p := ⟨YaraScan.outputSchema, rows, false⟩) rfl rfl hfits
    exact ⟨b, hcalls, hspec⟩
  · intro rows hfits hoffsets
    obtain ⟨b, hcalls, _, hrows, hlen, hdecode⟩ := StringMatchProducer.nextBatch_once (A := A)
      (p := ⟨YaraStringMatches.outputSchema, rows, false⟩) rfl rfl hfits
    refine ⟨b, hcalls, hrows, hlen, hdecode.trans (List.map_congr_left (fun m hm => ?_))⟩
    rw [← StringMatch.toRow_offset (hoffsets m hm)]
    rfl

/-- A row with no tags between two rows with tags. -/
theorem producers_emit_once_tags :
    ∃ b, (∀ n, calls (ScanProducer.nextBatch columnar) (n + 1) ⟨YaraScan.outputSchema,
          [⟨"a", "default", ["x", "y"]⟩, ⟨"b", "default", []⟩, ⟨"c", "default", ["z"]⟩], false⟩
        = .ok (some b) :: List.replicate n (.ok none))
      ∧ decodeScan columnar b = [some ⟨"a", "default", ["x", "y"]⟩, some ⟨"b", "default", []⟩,
        some ⟨"c", "default", ["z"]⟩] := by
  obtain ⟨b, hcalls, _, _, hdecode⟩ := (producers_emit_once columnar).1
    [⟨"a", "default", ["x", "y"]⟩, ⟨"b", "default", []⟩, ⟨"c", "default", ["z"]⟩] (by decide)
  exact ⟨b, hcalls, hdecode⟩

end YaraWorker
