/-
# What a row of `yara_string_matches` identifies

Each row names the byte range of its hit in the caller's own data: the truncation
keeps positions, the casts of the offset lose nothing, and no other range with the
same start has the same rendering (`stringMatches_locate`).
-/
import YaraWorker.Columnar
import YaraWorker.RenderMatched
import YaraWorker.ScanViews
import YaraWorker.TableStringMatches

open Columnar Pull

namespace YaraWorker

/-! ## Ranges of one blob -/

/-- Ranges with one start and one rendering have one length. -/
theorem length_unique_of_renderMatched {data : List UInt8} {start n n' : ℕ}
    (hn : start + n ≤ data.length) (hn' : start + n' ≤ data.length)
    (h : renderMatched ((data.drop start).take n) = renderMatched ((data.drop start).take n')) :
    n = n' := by
  -- one range is a prefix of the other
  wlog hle : n ≤ n' generalizing n n'
  · exact (this hn' hn h.symm (by omega)).symm
  have heq := renderMatched_prefix_injective (List.take_prefix_take_left hle) h
  have hlen := congrArg List.length heq
  rw [List.length_take, List.length_take, List.length_drop] at hlen
  omega

section Hits

variable {Y : YaraX} {rules : Y.Rules} {data : List UInt8} {r : Rule} {p : Pattern} {m : Match}

/-- A hit is a range of the caller's data, within the first `maxDataLen` bytes. -/
theorem IsHit.range (hranges : Y.ReportsRanges) (h : IsHit Y rules data r p m) :
    m.start ≤ m.stop ∧ m.stop ≤ data.length ∧ m.stop ≤ maxDataLen
      ∧ m.data = (data.drop m.start).take (m.stop - m.start) := by
  obtain ⟨results, hscan, hr, hp, hm⟩ := h
  obtain ⟨hle, hstop, hdata⟩ := hranges rules (bounded data) results hscan r hr p hp m hm
  rw [bounded_eq_take] at hstop hdata
  rw [List.length_take] at hstop
  refine ⟨hle, by omega, by omega, ?_⟩
  rw [hdata, List.take_take, Nat.min_eq_left (by omega), List.drop_take]

/-- The offset of a row is the start of its hit. -/
theorem IsHit.toRow_offset (hranges : Y.ReportsRanges) (h : IsHit Y rules data r p m) :
    (stringMatch r p m).toRow.offset = m.start := by
  obtain ⟨hle, _, hmax, _⟩ := h.range hranges
  have hsmall : m.start < 2 ^ 63 := by
    have hconst : maxDataLen < 2 ^ 63 := by decide
    omega
  have hoffset : (stringMatch r p m).offset.toNat = m.start := by
    show (UInt64.ofNat m.start).toNat = m.start
    rw [UInt64.toNat_ofNat']
    exact Nat.mod_eq_of_lt m.start_lt
  rw [StringMatch.toRow_offset (by omega), hoffset]

/-- From the start of a hit, exactly the range of the hit has its rendering. -/
theorem IsHit.renderMatched_eq_iff (hranges : Y.ReportsRanges) (h : IsHit Y rules data r p m)
    (n : ℕ) :
    (m.start + n ≤ data.length
      ∧ renderMatched ((data.drop m.start).take n) = (stringMatch r p m).matched)
      ↔ n = m.stop - m.start := by
  obtain ⟨hle, hstop, _, hdata⟩ := h.range hranges
  show (_ ∧ _ = renderMatched m.data) ↔ _
  rw [hdata]
  constructor
  · rintro ⟨hn, hrender⟩
    exact length_unique_of_renderMatched hn (by omega) hrender
  · rintro rfl
    exact ⟨by omega, rfl⟩

/-- Hits of one pattern with different ranges give different rows. -/
theorem IsHit.toRow_ne (hranges : Y.ReportsRanges) {m' : Match} (h : IsHit Y rules data r p m)
    (h' : IsHit Y rules data r p m') (hne : m.start ≠ m'.start ∨ m.stop ≠ m'.stop) :
    (stringMatch r p m).toRow ≠ (stringMatch r p m').toRow := by
  intro hrow
  have hstart : m.start = m'.start := by
    have hoffset := congrArg StringMatchRow.offset hrow
    rw [h.toRow_offset hranges, h'.toRow_offset hranges] at hoffset
    exact Int.ofNat.inj hoffset
  have hmatched : (stringMatch r p m).matched = (stringMatch r p m').matched :=
    congrArg StringMatchRow.matched hrow
  -- one start and one text leave room for one length only
  have hlen := (h.renderMatched_eq_iff hranges (m.stop - m.start)).mpr rfl
  rw [hmatched, hstart, h'.renderMatched_eq_iff hranges] at hlen
  obtain ⟨hle, _⟩ := h.range hranges
  obtain ⟨hle', _⟩ := h'.range hranges
  omega

end Hits

/-! ## The rows of the table function -/

/-- **A row identifies its range in the caller's data.**  Every row the table function
emits comes from a hit: its offset is the non-negative start of the hit, the hit ends
within the first `maxDataLen` bytes, and the length of the hit is the only length at
which the bytes of the untruncated data from the offset render as the row's text.
So different ranges of one pattern give different rows, although the renderer is not
injective. -/
theorem stringMatches_locate (A : Arrow) (Y : YaraX) (hranges : Y.ReportsRanges)
    (params : ProcessParams) (hschema : params.outputSchema = YaraStringMatches.outputSchema)
    (src : String) (hsrc : params.arguments.constStr 1 = some src)
    (rules : Y.Rules) (hrules : compileRules Y src = .ok rules)
    (data : List UInt8) (hdata : constDataBytes params = some data) :
    (∃ p, YaraStringMatches.producer Y params = .ok p
      ∧ ∀ batches, Drains (StringMatchProducer.nextBatch A) p batches →
        ∀ cell ∈ batches.flatMap (decodeStringMatches A), ∃ row r pt m, cell = some row
          ∧ IsHit Y rules data r pt m ∧ row.rule = r.identifier ∧ row.identifier = pt.identifier
          ∧ 0 ≤ row.offset ∧ row.offset = m.start ∧ m.start ≤ m.stop ∧ m.stop ≤ maxDataLen
          ∧ ∀ n, (row.offset.toNat + n ≤ data.length
              ∧ renderMatched ((data.drop row.offset.toNat).take n) = row.matched)
              ↔ n = m.stop - m.start)
    ∧ (∀ r pt m m', IsHit Y rules data r pt m → IsHit Y rules data r pt m' →
        (m.start ≠ m'.start ∨ m.stop ≠ m'.stop) →
        (stringMatch r pt m).toRow ≠ (stringMatch r pt m').toRow)
    ∧ ∃ a b, a ≠ b ∧ renderMatched a = renderMatched b := by
  have hproducer : YaraStringMatches.producer Y params
      = .ok ⟨params.outputSchema, scanStrings Y rules data, false⟩ := by
    rw [YaraStringMatches.producer_of_constants hsrc hdata, compileOrError_of_ok Y hrules]
    rfl
  refine ⟨⟨_, hproducer, ?_⟩, fun r pt m m' h h' hne => h.toRow_ne hranges h' hne,
    [0x00], [0x30, 0x30], by decide, ?_⟩
  · intro batches hdrains cell hcell
    rw [StringMatchProducer.decode_of_drains hschema rfl hdrains] at hcell
    obtain ⟨row, hrow, rfl⟩ := List.mem_map.mp hcell
    obtain ⟨r, pt, m, hhit, rfl⟩ := exists_hit_of_mem_scanStrings hrow
    obtain ⟨hle, _, hmax, _⟩ := hhit.range hranges
    have hoffset := hhit.toRow_offset hranges
    refine ⟨_, r, pt, m, rfl, hhit, rfl, rfl, by omega, hoffset, hle, hmax, fun n => ?_⟩
    rw [hoffset, Int.toNat_natCast]
    exact hhit.renderMatched_eq_iff hranges n
  · exact (renderMatched_eq_iff (by decide)).mpr (Or.inl nul_collision)

/-! ## An engine with overlapping hits -/

/-- In data of at least 17 bytes, one hit at each of the first 17 positions, up to the
end of the data. -/
def suffixHits (slice : List UInt8) : List Match :=
  if 17 ≤ slice.length then
    (List.finRange 17).map (fun k : Fin 17 =>
      ⟨k.val, slice.length, slice.drop k.val, by omega⟩)
  else []

theorem suffixHits_of_le {slice : List UInt8} (h : 17 ≤ slice.length) :
    suffixHits slice = (List.finRange 17).map (fun k : Fin 17 =>
      ⟨k.val, slice.length, slice.drop k.val, by omega⟩) := by
  rw [suffixHits, if_pos h]

/-- An engine in which every source is one rule of that name, with these hits. -/
def suffixes : YaraX :=
  .ofTables (fun _ => none) (fun source slice =>
    .ok [⟨source, "default", [], [⟨"$a", suffixHits slice⟩]⟩])

theorem suffixes_reportsRanges : suffixes.ReportsRanges := by
  intro rules slice results hscan r hr p hp m hm
  cases hscan
  rw [List.mem_singleton] at hr
  subst hr
  rw [List.mem_singleton] at hp
  subst hp
  unfold suffixHits at hm
  split_ifs at hm with hlen
  · obtain ⟨k, _, rfl⟩ := List.mem_map.mp hm
    refine ⟨?_, le_rfl, ?_⟩
    · show k.val ≤ slice.length
      omega
    · rw [List.take_length]
  · exact absurd hm List.not_mem_nil

theorem compileRules_suffixes (src : String) : compileRules suffixes src = .ok src :=
  compileRules_ofTables _ _ src

/-- On twenty zero bytes the row of the last hit names its four bytes: with no other length
do the bytes from its offset render as its text. -/
theorem stringMatches_locate_suffixes :
    ∃ p b, YaraStringMatches.producer suffixes (.ofConstants YaraStringMatches.outputSchema
        (List.replicate 20 0) "r") = .ok p
      ∧ Drains (StringMatchProducer.nextBatch columnar) p [b]
      ∧ some ⟨"r", "$a", 16, "00000000"⟩ ∈ decodeStringMatches columnar b
      ∧ ∀ n, (16 + n ≤ 20 ∧ renderMatched (List.replicate n 0) = "00000000") ↔ n = 4 := by
  have hproducer : YaraStringMatches.producer suffixes (.ofConstants YaraStringMatches.outputSchema
      (List.replicate 20 0) "r")
      = .ok ⟨YaraStringMatches.outputSchema, scanStrings suffixes "r" (List.replicate 20 0), false⟩ := by
    refine (YaraStringMatches.producer_of_constants rfl rfl).trans ?_
    rw [compileOrError_of_ok suffixes (compileRules_suffixes "r")]
    rfl
  obtain ⟨b, -, hdrains, -, -, hdecode⟩ := StringMatchProducer.nextBatch_once (A := columnar)
    (p := ⟨YaraStringMatches.outputSchema, scanStrings suffixes "r" (List.replicate 20 0), false⟩)
    rfl rfl (by decide +kernel)
  have hrow : some ⟨"r", "$a", 16, "00000000"⟩ ∈ decodeStringMatches columnar b := by
    rw [hdecode]
    decide +kernel
  have hrender : renderMatched (List.replicate 4 0) = "00000000" := by decide +kernel
  obtain ⟨⟨p, hp, hrows⟩, -⟩ := stringMatches_locate columnar suffixes suffixes_reportsRanges
    (.ofConstants YaraStringMatches.outputSchema (List.replicate 20 0) "r") rfl "r" rfl "r"
    (compileRules_suffixes "r") (List.replicate 20 0) rfl
  cases hproducer.symm.trans hp
  obtain ⟨row, r, pt, m, hcell, -, -, -, -, -, -, -, hunique⟩ :=
    hrows [b] hdrains _ (by rwa [List.flatMap_singleton])
  cases hcell
  have hrange : ∀ n, (16 + n ≤ 20 ∧ renderMatched (List.replicate n 0) = "00000000")
      ↔ n = m.stop - m.start := by
    intro n
    rw [← hunique n]
    refine and_congr_right (fun hn => ?_)
    show _ ↔ renderMatched (((List.replicate 20 0).drop 16).take n) = _
    rw [List.drop_replicate, List.take_replicate, Nat.min_eq_left (by omega)]
  -- four zero bytes do render as the text, so this length is 4
  have hlen : 4 = m.stop - m.start := (hrange 4).mp ⟨by omega, hrender⟩
  rw [← hlen] at hrange
  exact ⟨_, b, hproducer, hdrains, hrow, hrange⟩

end YaraWorker
