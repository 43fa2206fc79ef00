/-
# The one-entry rule cache (`RuleCache` of `scalar/matches.rs`)

The cache keeps the last source that compiled and its rules in two separate
fields.  `RuleCache.Represents` ties it to a `Memo` of the compiler, whose entries
carry the proof that they are right; `RuleCache.get_represents` is the refinement,
and everything about stale entries follows from `Memo.fetch_fst`.
-/
import YaraWorker.Memo
import YaraWorker.Scanning

namespace YaraWorker

variable {Y : YaraX}

/-- The cache: the last compiled source and its rules. -/
structure RuleCache (Y : YaraX) where
  lastSrc : Option String
  lastRules : Option Y.Rules

namespace RuleCache

/-- The derived `Default`. -/
def default : RuleCache Y := ⟨none, none⟩

/-- `self.last_rules.as_ref().expect("just set")`. -/
def expectRules (cache : RuleCache Y) : Outcome Y.Rules :=
  match cache.lastRules with
  | some rules => .ok rules
  | none => .error .panic

/-- Compile `src`, or return the cached rules if `src` is unchanged.  The second
component is the cache after the call. -/
def get (cache : RuleCache Y) (src : String) : Outcome Y.Rules × RuleCache Y :=
  if cache.lastSrc ≠ some src then
    match compileOrError Y src with
    -- `?` leaves both fields as they were
    | .error e => (.error e, cache)
    | .ok rules =>
        let cache := { cache with lastSrc := some src }
        let cache := { cache with lastRules := some rules }
        (cache.expectRules, cache)
  else (cache.expectRules, cache)

/-- The two fields hold what a memo of the compiler holds. -/
def Represents (cache : RuleCache Y) (m : Memo (compileOrError Y)) : Prop :=
  cache.lastSrc = m.key? ∧ cache.lastRules = m.value?

theorem default_represents : (default : RuleCache Y).Represents .empty := ⟨rfl, rfl⟩

/-- **The cache refines the memo.**  A call returns what a fetch returns, and leaves
a cache that represents the memo after it. -/
theorem get_represents {cache : RuleCache Y} {m : Memo (compileOrError Y)}
    (h : cache.Represents m) (src : String) :
    (cache.get src).1 = (m.fetch src).1 ∧ (cache.get src).2.Represents (m.fetch src).2 := by
  obtain ⟨hsrc, hrules⟩ := h
  unfold get
  by_cases hkey : cache.lastSrc = some src
  · -- a hit: both fields are those of the memo
    rw [if_neg (not_not.mpr hkey)]
    obtain ⟨v, hv, hfetch⟩ := Memo.fetch_of_key_eq (hsrc.symm.trans hkey)
    rw [hfetch]
    refine ⟨?_, hsrc, hrules⟩
    show cache.expectRules = .ok v
    rw [expectRules, hrules, hv]
  · -- a miss: the fields change only when the source compiles
    rw [if_pos hkey, Memo.fetch_of_key_ne (fun hm => hkey (hsrc.trans hm))]
    cases hc : compileOrError Y src with
    | error e =>
        rw [Memo.refill_of_error m hc]
        exact ⟨rfl, hsrc, hrules⟩
    | ok rules =>
        rw [Memo.refill_of_ok m hc]
        exact ⟨rfl, rfl, rfl⟩

/-- A call on a cache that represents a memo returns what the compiler gives. -/
theorem get_fst {cache : RuleCache Y} {m : Memo (compileOrError Y)} (h : cache.Represents m)
    (src : String) : (cache.get src).1 = compileOrError Y src := by
  rw [(get_represents h src).1, Memo.fetch_fst]

end RuleCache

end YaraWorker
