/-
# The two views of one scan

`scanStrings` against `scanRules` on the same rules and data.

* `scanStrings_of_ok` : the three pushing loops are one flat traversal;
* `scanStrings_view` : how many rows there are, which hit each row is, and how
  the rule column of the hits comes from the rule column of the matching rules.
-/
import YaraWorker.Ragged
import YaraWorker.Scanning

namespace YaraWorker

/-! ## The flat traversal -/

/-- The rows of one rule. -/
def ruleRows (r : Rule) : List StringMatch :=
  r.patterns.flatMap (fun p => p.hits.map (stringMatch r p))

/-- The number of hits of one rule. -/
def hitCount (r : Rule) : ℕ := (r.patterns.map (fun p => p.hits.length)).sum

theorem length_ruleRows (r : Rule) : (ruleRows r).length = hitCount r := by
  rw [ruleRows, List.length_flatMap, hitCount]
  simp only [List.length_map]

section Views

variable {Y : YaraX} {rules : Y.Rules} {data : List UInt8}

theorem scanRules_of_ok {results : List Rule} (h : Y.scan rules (bounded data) = .ok results) :
    scanRules Y rules data = results.map (fun r =>
      { rule := r.identifier, nameSpace := r.nameSpace, tags := r.tags }) := by
  unfold scanRules
  rw [h]

theorem scanRules_of_error {e : Y.ScanError} (h : Y.scan rules (bounded data) = .error e) :
    scanRules Y rules data = [] := by
  unfold scanRules
  rw [h]

/-- **The loops push the hits in order**: rule by rule, pattern by pattern. -/
theorem scanStrings_of_ok {results : List Rule} (h : Y.scan rules (bounded data) = .ok results) :
    scanStrings Y rules data = results.flatMap ruleRows := by
  -- from the innermost loop outwards
  have hhits : ∀ (r : Rule) (p : Pattern) (out : List StringMatch),
      p.hits.foldl (fun out m => out ++ [stringMatch r p m]) out
        = out ++ p.hits.map (stringMatch r p) := by
    intro r p out
    rw [List.foldl_append_eq_append, ← List.flatMap_def, List.map_eq_flatMap]
  have hpatterns : ∀ (r : Rule) (out : List StringMatch),
      r.patterns.foldl (fun out p => p.hits.foldl (fun out m => out ++ [stringMatch r p m]) out) out
        = out ++ ruleRows r := by
    intro r out
    simp only [hhits]
    rw [List.foldl_append_eq_append, ← List.flatMap_def, ruleRows]
  unfold scanStrings
  rw [h]
  simp only [hpatterns]
  rw [List.foldl_append_eq_append, ← List.flatMap_def, List.nil_append]

theorem scanStrings_of_error {e : Y.ScanError} (h : Y.scan rules (bounded data) = .error e) :
    scanStrings Y rules data = [] := by
  unfold scanStrings
  rw [h]

/-- `m` is a hit of pattern `p` of the matching rule `r` on the data. -/
def IsHit (Y : YaraX) (rules : Y.Rules) (data : List UInt8) (r : Rule) (p : Pattern) (m : Match) :
    Prop :=
  ∃ results, Y.scan rules (bounded data) = .ok results ∧ r ∈ results ∧ p ∈ r.patterns ∧ m ∈ p.hits

/-- Every row comes from a hit. -/
theorem exists_hit_of_mem_scanStrings {row : StringMatch} (h : row ∈ scanStrings Y rules data) :
    ∃ r p m, IsHit Y rules data r p m ∧ row = stringMatch r p m := by
  rcases hscan : Y.scan rules (bounded data) with e | results
  · rw [scanStrings_of_error hscan] at h
    exact absurd h List.not_mem_nil
  · rw [scanStrings_of_ok hscan] at h
    obtain ⟨r, hr, hrow⟩ := List.mem_flatMap.mp h
    obtain ⟨p, hp, hrow⟩ := List.mem_flatMap.mp hrow
    obtain ⟨m, hm, rfl⟩ := List.mem_map.mp hrow
    exact ⟨r, p, m, ⟨results, hscan, hr, hp, hm⟩, rfl⟩

/-! ## Positions -/

/-- Hit `k` of pattern `j` in the rows of one rule. -/
theorem getElem?_ruleRows (r : Rule) {j k : ℕ} (hj : j < r.patterns.length)
    (hk : k < r.patterns[j].hits.length) :
    (ruleRows r)[((r.patterns.take j).map (fun p => p.hits.length)).sum + k]?
      = some (stringMatch r r.patterns[j] r.patterns[j].hits[k]) := by
  have hpos := Ragged.getElem?_flatten_offset_add
    (r.patterns.map (fun p => p.hits.map (stringMatch r p))) (i := j) (k := k)
    (by simpa using hj) (by simpa using hk)
  rw [Ragged.offset, List.map_map, ← List.map_take] at hpos
  rw [ruleRows, List.flatMap_def]
  simpa [Function.comp_def] using hpos

/-- Hit `k` of pattern `j` of rule `i` stands after exactly the hits of the earlier
rules and of the earlier patterns of its rule. -/
theorem getElem?_flatMap_ruleRows (results : List Rule) {i j k : ℕ} (hi : i < results.length)
    (hj : j < results[i].patterns.length) (hk : k < results[i].patterns[j].hits.length) :
    (results.flatMap ruleRows)[((results.take i).map hitCount).sum
        + ((results[i].patterns.take j).map (fun p => p.hits.length)).sum + k]?
      = some (stringMatch results[i] results[i].patterns[j] results[i].patterns[j].hits[k]) := by
  -- `inner` is the position among the rows of rule `i`
  set inner := ((results[i].patterns.take j).map (fun p => p.hits.length)).sum + k with hinner
  have hrow := getElem?_ruleRows results[i] hj hk
  obtain ⟨hlt, hget⟩ := List.getElem?_eq_some_iff.mp hrow
  have hpos := Ragged.getElem?_flatten_offset_add (results.map ruleRows) (i := i) (k := inner)
    (by simpa using hi) (by simpa [hinner] using hlt)
  have hoffset : Ragged.offset (results.map ruleRows) i = ((results.take i).map hitCount).sum := by
    rw [Ragged.offset, List.map_map, ← List.map_take]
    congr 1
    exact List.map_congr_left (fun r _ => length_ruleRows r)
  rw [hoffset] at hpos
  rw [List.flatMap_def, Nat.add_assoc, ← hinner, hpos]
  simp only [List.getElem_map]
  rw [← hget]

/-! ## The rule columns -/

/-- The rule column of the hits. -/
theorem map_rule_flatMap_ruleRows (results : List Rule) :
    (results.flatMap ruleRows).map StringMatch.rule
      = results.flatMap (fun r => List.replicate (hitCount r) r.identifier) := by
  rw [List.map_flatMap]
  refine List.flatMap_congr (fun r _ => ?_)
  rw [List.eq_replicate_iff]
  refine ⟨by rw [List.length_map, length_ruleRows], ?_⟩
  intro name hname
  obtain ⟨row, hrow, rfl⟩ := List.mem_map.mp hname
  obtain ⟨p, _, hp⟩ := List.mem_flatMap.mp hrow
  obtain ⟨m, _, rfl⟩ := List.mem_map.mp hp
  rfl

/-- For each row of the hits, the index of its rule among the matching rules. -/
def origin (results : List Rule) : List ℕ :=
  (List.range results.length).flatMap
    (fun i => List.replicate ((results[i]?.map hitCount).getD 0) i)

/-- Hits come in the order of their rules. -/
theorem pairwise_origin (results : List Rule) : (origin results).Pairwise (· ≤ ·) := by
  rw [origin, List.pairwise_flatMap]
  constructor
  · intro i _
    exact List.pairwise_replicate.mpr (Or.inr le_rfl)
  · refine List.pairwise_lt_range.imp ?_
    intro i j hij x hx y hy
    rw [List.eq_of_mem_replicate hx, List.eq_of_mem_replicate hy]
    exact hij.le

theorem lt_of_mem_origin {results : List Rule} {i : ℕ} (h : i ∈ origin results) :
    i < results.length := by
  obtain ⟨j, hj, hi⟩ := List.mem_flatMap.mp h
  rw [List.eq_of_mem_replicate hi]
  exact List.mem_range.mp hj

/-- Each rule occurs as often as it has hits. -/
theorem count_origin (results : List Rule) {i : ℕ} (hi : i < results.length) :
    (origin results).count i = hitCount results[i] := by
  have hcount : ∀ j, (List.replicate ((results[j]?.map hitCount).getD 0) j).count i
      = if j = i then hitCount results[i] else 0 := by
    intro j
    rw [List.count_replicate]
    by_cases hji : j = i
    · subst hji
      simp [hi]
    · simp [hji]
  -- only block `i` of the origins holds `i`
  have hsum : ∀ n, ((List.range n).map (fun j => if j = i then hitCount results[i] else 0)).sum
      = if i < n then hitCount results[i] else 0 := by
    intro n
    induction n with
    | zero => simp
    | succ n ih =>
        rw [List.range_succ, List.map_append, List.sum_append, ih, List.map_singleton,
          List.sum_singleton]
        split_ifs <;> omega
  rw [origin, List.count_flatMap]
  simp only [Function.comp_def, hcount]
  rw [hsum, if_pos hi]

/-- The rule of each row is the rule at its origin. -/
theorem map_rule_eq_map_origin (results : List Rule) :
    (results.flatMap ruleRows).map StringMatch.rule
      = (origin results).map (fun i => ((results.map Rule.identifier)[i]?).getD "") := by
  rw [map_rule_flatMap_ruleRows, origin, List.map_flatMap, List.flatMap_def, List.flatMap_def]
  congr 1
  refine List.ext_getElem (by simp) (fun i h₁ h₂ => ?_)
  have hi : i < results.length := by simpa using h₁
  simp [hi]

/-- The rule column of the hits repeats each entry of the rule column of the matching
rules. -/
theorem map_rule_eq_zipWith (results : List Rule) :
    (results.flatMap ruleRows).map StringMatch.rule
      = (List.zipWith List.replicate (results.map hitCount)
          (results.map Rule.identifier)).flatten := by
  rw [map_rule_flatMap_ruleRows, List.zipWith_map, List.zipWith_self, List.flatMap_def]

/-- **The two views of one scan agree.**  A scanner error empties both.  Otherwise
`scan_strings` has one row for each hit: hit `k` of pattern `j` of rule `i` stands
after exactly the hits before it and carries its rule, pattern, start and rendered
bytes.  Its rule column is the rule column of `scan_rules` with entry `i` repeated
as often as rule `i` has hits: each row comes from one matching rule (`origin`), in
the same relative order, and a rule without hits has none. -/
theorem scanStrings_view (Y : YaraX) (rules : Y.Rules) (data : List UInt8) :
    (∀ e, Y.scan rules (bounded data) = .error e →
      scanStrings Y rules data = [] ∧ scanRules Y rules data = [])
    ∧ (∀ results, Y.scan rules (bounded data) = .ok results →
      (scanStrings Y rules data).length = (results.map hitCount).sum
      ∧ (∀ i (hi : i < results.length) j (hj : j < results[i].patterns.length) k
          (hk : k < results[i].patterns[j].hits.length),
          ∃ row, (scanStrings Y rules data)[((results.take i).map hitCount).sum
                + ((results[i].patterns.take j).map (fun p => p.hits.length)).sum + k]? = some row
            ∧ row.rule = results[i].identifier
            ∧ row.identifier = results[i].patterns[j].identifier
            ∧ row.offset.toNat = results[i].patterns[j].hits[k].start
            ∧ row.matched = renderMatched results[i].patterns[j].hits[k].data)
      ∧ (scanRules Y rules data).map RuleMatch.rule = results.map Rule.identifier
      ∧ (scanStrings Y rules data).map StringMatch.rule
          = (List.zipWith List.replicate (results.map hitCount)
              ((scanRules Y rules data).map RuleMatch.rule)).flatten
      ∧ ∃ origin : List ℕ, origin.Pairwise (· ≤ ·)
          ∧ (∀ i ∈ origin, i < (scanRules Y rules data).length)
          ∧ (∀ i (hi : i < results.length), origin.count i = hitCount results[i])
          ∧ (scanStrings Y rules data).map StringMatch.rule
              = origin.map (fun i => (((scanRules Y rules data).map RuleMatch.rule)[i]?).getD "")) := by
  refine ⟨fun e he => ⟨scanStrings_of_error he, scanRules_of_error he⟩, fun results h => ?_⟩
  have hcolumn : (scanRules Y rules data).map RuleMatch.rule = results.map Rule.identifier := by
    rw [scanRules_of_ok h, List.map_map]
    rfl
  have hlength : (scanRules Y rules data).length = results.length := by
    rw [scanRules_of_ok h, List.length_map]
  rw [hcolumn, hlength, scanStrings_of_ok h]
  refine ⟨?_, ?_, rfl, map_rule_eq_zipWith results, origin results, pairwise_origin results,
    fun i hi => lt_of_mem_origin hi, fun i hi => count_origin results hi,
    map_rule_eq_map_origin results⟩
  · rw [List.length_flatMap]
    congr 1
    exact List.map_congr_left (fun r _ => length_ruleRows r)
  · intro i hi j hj k hk
    refine ⟨_, getElem?_flatMap_ruleRows results hi hj hk, rfl, rfl, ?_, rfl⟩
    show (UInt64.ofNat _).toNat = _
    rw [UInt64.toNat_ofNat']
    exact Nat.mod_eq_of_lt results[i].patterns[j].hits[k].start_lt

end Views

/-- A matching rule without hits, and one with three hits of two patterns. -/
def quietAndLoud : List Rule :=
  [⟨"quiet", "default", [], [⟨"$a", []⟩]⟩,
    ⟨"loud", "default", [], [⟨"$b", [⟨0, 1, [0x61], by decide⟩, ⟨1, 2, [0x61], by decide⟩]⟩,
      ⟨"$c", [⟨0, 2, [0x61, 0x61], by decide⟩]⟩]⟩]

theorem scanStrings_view_quietAndLoud :
    (scanStrings (.ofTables (fun _ => none) (fun _ _ => .ok quietAndLoud)) "r" [0x61, 0x61]).length = 3
    ∧ (scanStrings (.ofTables (fun _ => none) (fun _ _ => .ok quietAndLoud)) "r"
        [0x61, 0x61]).map StringMatch.rule = ["loud", "loud", "loud"] := by
  have hviews := (scanStrings_view (.ofTables (fun _ => none) (fun _ _ => .ok quietAndLoud)) "r"
    [0x61, 0x61]).2
  obtain ⟨hlength, _, hcolumn, hrepeat, _⟩ := hviews quietAndLoud rfl
  refine ⟨hlength, ?_⟩
  rw [hrepeat, hcolumn]
  rfl

end YaraWorker
