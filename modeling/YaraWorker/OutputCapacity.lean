/-
# How much text the hits of one scan make

`bounded` limits the data, not the output: overlapping hits repeat its bytes, and
the hex form doubles them.  `reachesTryNew_iff` says exactly which scans the string
builders of `yara_string_matches` can take; `suffixes_overflow` is one they cannot:
seventeen overlapping hits in 64 MiB of zeros.
-/
import YaraWorker.HitRanges

open Columnar Utf8Bytes HexText

namespace YaraWorker

/-! ## Text lengths -/

theorem textLen_flatMap {α : Type} (xs : List α) (f : α → List String) :
    textLen (xs.flatMap f) = (xs.map (fun x => textLen (f x))).sum := by
  induction xs with
  | nil => rfl
  | cons x xs ih => rw [List.flatMap_cons, textLen_append, ih, List.map_cons, List.sum_cons]

theorem textLen_replicate (n : ℕ) (s : String) :
    textLen (List.replicate n s) = n * s.utf8ByteSize := by
  rw [textLen, List.map_replicate, List.sum_replicate_nat]

/-- The number of bytes `render_matched` writes. -/
def renderedLen (bytes : List UInt8) : ℕ :=
  if PrintableUtf8 bytes then bytes.length else 2 * bytes.length

theorem utf8ByteSize_renderMatched (bytes : List UInt8) :
    (renderMatched bytes).utf8ByteSize = renderedLen bytes := by
  unfold renderedLen
  by_cases h : PrintableUtf8 bytes
  · rw [if_pos h, ← length_textBytes, (renderMatched_of_printable h).1]
  · rw [if_neg h, renderMatched_of_not_printable h, utf8ByteSize_hexText]

/-! ## The columns of one scan -/

/-- What the hits need in the rule, identifier and matched columns. -/
def HitsFit (results : List Rule) : Prop :=
  (results.map (fun r => hitCount r * r.identifier.utf8ByteSize)).sum ≤ i32Max
    ∧ ((results.flatMap Rule.patterns).map
        (fun p => p.hits.length * p.identifier.utf8ByteSize)).sum ≤ i32Max
    ∧ (((results.flatMap Rule.patterns).flatMap Pattern.hits).map
        (fun m => renderedLen m.data)).sum ≤ i32Max

theorem textLen_rule (results : List Rule) :
    textLen ((results.flatMap ruleRows).map StringMatch.rule)
      = (results.map (fun r => hitCount r * r.identifier.utf8ByteSize)).sum := by
  rw [map_rule_flatMap_ruleRows, textLen_flatMap]
  simp only [textLen_replicate]

theorem textLen_identifier (results : List Rule) :
    textLen ((results.flatMap ruleRows).map StringMatch.identifier)
      = ((results.flatMap Rule.patterns).map
          (fun p => p.hits.length * p.identifier.utf8ByteSize)).sum := by
  have hrows : (results.flatMap ruleRows).map StringMatch.identifier
      = (results.flatMap Rule.patterns).flatMap
          (fun p => List.replicate p.hits.length p.identifier) := by
    rw [List.map_flatMap, List.flatMap_assoc]
    refine List.flatMap_congr (fun r _ => ?_)
    rw [ruleRows, List.map_flatMap]
    refine List.flatMap_congr (fun p _ => ?_)
    rw [List.map_map]
    exact List.map_const'
  rw [hrows, textLen_flatMap]
  simp only [textLen_replicate]

theorem textLen_matched (results : List Rule) :
    textLen ((results.flatMap ruleRows).map StringMatch.matched)
      = (((results.flatMap Rule.patterns).flatMap Pattern.hits).map
          (fun m => renderedLen m.data)).sum := by
  have hrows : (results.flatMap ruleRows).map StringMatch.matched
      = ((results.flatMap Rule.patterns).flatMap Pattern.hits).map
          (fun m => renderMatched m.data) := by
    rw [List.map_flatMap, List.flatMap_assoc, List.map_flatMap]
    refine List.flatMap_congr (fun r _ => ?_)
    rw [ruleRows, List.map_flatMap, List.map_flatMap]
    refine List.flatMap_congr (fun p _ => ?_)
    rw [List.map_map]
    rfl
  rw [hrows, textLen, List.map_map]
  simp only [Function.comp_def, utf8ByteSize_renderMatched]

theorem fitsStrings_iff (results : List Rule) :
    FitsStrings (results.flatMap ruleRows) ↔ HitsFit results := by
  rw [FitsStrings, HitsFit, textLen_rule, textLen_identifier, textLen_matched]

/-! ## Reaching `try_new` -/

/-- The producer of the hits of one scan. -/
def hitProducer (Y : YaraX) (rules : Y.Rules) (data : List UInt8) : StringMatchProducer :=
  ⟨YaraStringMatches.outputSchema, scanStrings Y rules data, false⟩

/-- Scanning and then building the batch reaches `RecordBatch::try_new`, and at every
step of the loop the text appended to each string builder stays within its
capacity. -/
def ReachesTryNew (A : Arrow) (Y : YaraX) (rules : Y.Rules) (data : List UInt8) : Prop :=
  (∃ cols, (hitProducer Y rules data).fillColumns A = .ok cols)
    ∧ ∀ k, FitsStrings ((scanStrings Y rules data).take k)

section Reach

variable {A : Arrow} {Y : YaraX} {rules : Y.Rules} {data : List UInt8}

/-- The loop gets through exactly when the text of all rows fits. -/
theorem exists_fillColumns_iff :
    (∃ cols, (hitProducer Y rules data).fillColumns A = .ok cols)
      ↔ FitsStrings (scanStrings Y rules data) := by
  have hagree := (hitProducer Y rules data).fillColumns_agree (A := A)
  have hrows : (hitProducer Y rules data).rows = scanStrings Y rules data := rfl
  rw [hagree.exists_ok_iff, hrows]
  by_cases hfits : FitsStrings (scanStrings Y rules data)
  · rw [if_pos hfits]
    exact ⟨fun _ => hfits, fun _ => ⟨_, rfl⟩⟩
  · rw [if_neg hfits]
    constructor
    · rintro ⟨rows, hrows⟩
      cases hrows
    · intro h
      exact absurd h hfits

/-- Then the text fits after each row, too. -/
theorem reachesTryNew_iff_fitsStrings :
    ReachesTryNew A Y rules data ↔ FitsStrings (scanStrings Y rules data) := by
  constructor
  · intro h
    exact exists_fillColumns_iff.mp h.1
  · intro hfits
    refine ⟨exists_fillColumns_iff.mpr hfits, fun k => ?_⟩
    rw [← List.take_append_drop k (scanStrings Y rules data)] at hfits
    exact fitsStrings_of_append _ _ hfits

/-- The first call panics when the text does not fit, and only then. -/
theorem nextBatch_panics_iff :
    ((hitProducer Y rules data).nextBatch A).1 = .error .panic
      ↔ ¬ FitsStrings (scanStrings Y rules data) := by
  have hfresh := (hitProducer Y rules data).nextBatch_fresh (A := A) rfl
  by_cases hfits : FitsStrings (scanStrings Y rules data)
  · obtain ⟨b, hb, -⟩ := (hitProducer Y rules data).buildBatch_spec (A := A) rfl hfits
    rw [hfresh, hb]
    constructor
    · intro h
      cases h
    · intro h
      exact absurd hfits h
  · have hpanic := StringMatchProducer.buildBatch_panic (A := A)
      (p := hitProducer Y rules data) hfits
    rw [hfresh, hpanic]
    exact ⟨fun _ => hfits, fun _ => rfl⟩

/-- A scanner error makes no text; otherwise the totals of the hits decide. -/
theorem fitsStrings_scanStrings_iff :
    FitsStrings (scanStrings Y rules data)
      ↔ ∀ results, Y.scan rules (bounded data) = .ok results → HitsFit results := by
  rcases hscan : Y.scan rules (bounded data) with e | results
  · rw [scanStrings_of_error hscan]
    constructor
    · intro _ results h
      cases h
    · intro _
      decide
  · rw [scanStrings_of_ok hscan, fitsStrings_iff]
    constructor
    · intro h results' hresults
      cases hresults
      exact h
    · intro h
      exact h results rfl

/-- **Which scans the output can take.**  The totals of the hits decide whether `try_new` is
reached, whether the loop over the rows ends at all, and otherwise the call panics. -/
theorem reachesTryNew_iff (A : Arrow) (Y : YaraX) (rules : Y.Rules) (data : List UInt8) :
    (ReachesTryNew A Y rules data
      ↔ ∀ results, Y.scan rules (bounded data) = .ok results → HitsFit results)
    ∧ ((∃ cols, (hitProducer Y rules data).fillColumns A = .ok cols)
      ↔ ∀ results, Y.scan rules (bounded data) = .ok results → HitsFit results)
    ∧ (((hitProducer Y rules data).nextBatch A).1 = .error .panic
      ↔ ∃ results, Y.scan rules (bounded data) = .ok results ∧ ¬ HitsFit results) := by
  refine ⟨?_, ?_, ?_⟩
  · rw [reachesTryNew_iff_fitsStrings, fitsStrings_scanStrings_iff]
  · rw [exists_fillColumns_iff, fitsStrings_scanStrings_iff]
  · rw [nextBatch_panics_iff, fitsStrings_scanStrings_iff]
    simp only [not_forall, exists_prop]

end Reach

/-! ## A scan it cannot take -/

theorem renderedLen_zeros {n : ℕ} (hn : 0 < n) : renderedLen (List.replicate n 0) = 2 * n := by
  have hprint : ¬ PrintableUtf8 (List.replicate n 0) := by
    rw [printableUtf8_ascii_iff (fun b hb => by rw [List.eq_of_mem_replicate hb]; decide)]
    intro hclean
    have hzero : IsClean (Char.ofUInt8 0) :=
      hclean 0 (List.mem_replicate.mpr ⟨by omega, rfl⟩)
    exact absurd hzero (by decide)
  rw [renderedLen, if_neg hprint, List.length_replicate]

/-- The hits on 64 MiB of zeros make more text than a string column can hold. -/
theorem not_hitsFit_suffixes :
    ¬ HitsFit [⟨"r", "default", [], [⟨"$a", suffixHits (List.replicate maxDataLen 0)⟩]⟩] := by
  rintro ⟨_, _, hmatched⟩
  have hmax : 17 ≤ maxDataLen := by decide
  have hhits : suffixHits (List.replicate maxDataLen 0) = _ :=
    suffixHits_of_le (by rwa [List.length_replicate])
  have htotal : i32Max < ((List.finRange 17).map (fun k : Fin 17 => 2 * (maxDataLen - k.val))).sum := by
    decide +kernel
  simp only [List.flatMap_singleton, hhits, List.map_map, Function.comp_def, List.drop_replicate]
    at hmatched
  -- each hit is written with two digits for each of its bytes
  have hlen : ∀ k : Fin 17, renderedLen (List.replicate (maxDataLen - k.val) 0)
      = 2 * (maxDataLen - k.val) := by
    intro k
    exact renderedLen_zeros (by omega)
  simp only [hlen] at hmatched
  omega

/-- **An overflow.**  Seventeen overlapping hits of one pattern, each a range of the
scanned data, make the `matched` builder panic. -/
theorem suffixes_overflow :
    suffixes.ReportsRanges
      ∧ (∀ rules slice results, suffixes.scan rules slice = .ok results →
          ∀ r ∈ results, ∀ p ∈ r.patterns, p.hits.length ≤ 1000000)
      ∧ ¬ ReachesTryNew columnar suffixes "r" (List.replicate maxDataLen 0)
      ∧ ((hitProducer suffixes "r" (List.replicate maxDataLen 0)).nextBatch columnar).1
          = .error .panic := by
  have hbounded : bounded (List.replicate maxDataLen 0) = List.replicate maxDataLen 0 := by
    rw [bounded_eq_take, List.take_replicate, Nat.min_self]
  have hscan : suffixes.scan "r" (bounded (List.replicate maxDataLen 0))
      = .ok [⟨"r", "default", [], [⟨"$a", suffixHits (List.replicate maxDataLen 0)⟩]⟩] := by
    rw [hbounded]
    rfl
  have hfull : ¬ FitsStrings (scanStrings suffixes "r" (List.replicate maxDataLen 0)) :=
    fun hfits => not_hitsFit_suffixes (fitsStrings_scanStrings_iff.mp hfits _ hscan)
  refine ⟨suffixes_reportsRanges, ?_, mt reachesTryNew_iff_fitsStrings.mp hfull,
    nextBatch_panics_iff.mpr hfull⟩
  intro rules slice results hscan r hr p hp
  cases hscan
  rw [List.mem_singleton] at hr
  subst hr
  rw [List.mem_singleton] at hp
  subst hp
  show (suffixHits slice).length ≤ 1000000
  unfold suffixHits
  split_ifs
  · rw [List.length_map, List.length_finRange]
    omega
  · exact Nat.zero_le _

end YaraWorker
