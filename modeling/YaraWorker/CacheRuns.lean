/-
# Runs of the rule cache

A run calls `RuleCache::get` on one source after another, from the default cache on,
and goes on after calls that fail.  Each call is recorded with its result, the sources
it gave to the compiler and the caches before and after it.

* `call_eq` : a call in terms of `RuleCache.get` and of the field `lastSrc`;
* `lastSrc_cacheAfter` : the cache holds the source of the last successful call;
* `calls_coherent` : the laws of every run.
-/
import YaraWorker.RuleCache

namespace YaraWorker

variable {Y : YaraX}

namespace RuleCache

/-! ## Calls with the compiler observed -/

/-- The body of `get`, with a compiler that may have effects. -/
def getM {m : Type → Type} [Monad m] (compile : String → m (Outcome Y.Rules))
    (cache : RuleCache Y) (src : String) : m (Outcome Y.Rules × RuleCache Y) :=
  if cache.lastSrc ≠ some src then do
    match ← compile src with
    | .error e => pure (.error e, cache)
    | .ok rules =>
        let cache := { cache with lastSrc := some src }
        let cache := { cache with lastRules := some rules }
        pure (cache.expectRules, cache)
  else pure (cache.expectRules, cache)

/-- With the pure compiler it is `get`. -/
theorem getM_pure (cache : RuleCache Y) (src : String) :
    (getM (m := Id) (compileOrError Y) cache src).run = cache.get src := by
  unfold getM get
  split
  · rw [Id.run_bind, Id.run]
    cases compileOrError Y src <;> rfl
  · rfl

/-- The compiler, which notes each source it is given. -/
def compileNoted (Y : YaraX) (src : String) : StateM (List String) (Outcome Y.Rules) := do
  modify (fun noted => noted ++ [src])
  pure (compileOrError Y src)

/-- A call of `get`: its source, the cache before it, what it returns, the sources it
gave to the compiler, and the cache after it. -/
structure Call (Y : YaraX) where
  src : String
  before : RuleCache Y
  result : Outcome Y.Rules
  compiled : List String
  after : RuleCache Y

def call (cache : RuleCache Y) (src : String) : Call Y :=
  let ((result, after), compiled) := (getM (compileNoted Y) cache src).run []
  { src, before := cache, result, compiled, after }

/-- The calls of a run on these sources. -/
def calls : RuleCache Y → List String → List (Call Y)
  | _, [] => []
  | cache, src :: srcs => cache.call src :: calls (cache.call src).after srcs

/-- The cache after the run. -/
def cacheAfter (cache : RuleCache Y) (srcs : List String) : RuleCache Y :=
  srcs.foldl (fun cache src => (cache.call src).after) cache

/-- The source of the last of these calls that succeeded. -/
def lastSuccess (calls : List (Call Y)) : Option String :=
  ((calls.filter (fun c => c.result.isOk)).getLast?).map Call.src

/-- Both fields are `None`, or they are a source and the rules it compiles to. -/
def Coherent (cache : RuleCache Y) : Prop :=
  (cache.lastSrc = none ∧ cache.lastRules = none) ∨
    ∃ s r, cache.lastSrc = some s ∧ cache.lastRules = some r ∧ compileRules Y s = .ok r

/-- **The laws of one call**, `earlier` being the calls before it. -/
structure CallLaws (earlier : List (Call Y)) (c : Call Y) : Prop where
  /-- It is a call of `get`. -/
  is_get : c.before.get c.src = (c.result, c.after)
  coherent_before : c.before.Coherent
  coherent_after : c.after.Coherent
  /-- The cache makes no difference to the result. -/
  result_eq : c.result = compileOrError Y c.src
  /-- `expect` is not reached with `None`. -/
  no_panic : c.result ≠ .error .panic
  /-- A failing call leaves the cache as it was. -/
  unchanged : ∀ e, c.result = .error e → c.after = c.before
  /-- The compiler runs exactly when no earlier call succeeded or the last one that did
  had another source. -/
  compiles_iff : c.compiled ≠ [] ↔
    lastSuccess earlier = none ∨ ∃ s, lastSuccess earlier = some s ∧ s ≠ c.src
  /-- It runs once at most, and on the source of the call. -/
  compiled_eq : c.compiled = [] ∨ c.compiled = [c.src]

/-! ## One call -/

/-- **A call.**  It compiles its source unless `lastSrc` is that source. -/
theorem call_eq (cache : RuleCache Y) (src : String) :
    cache.call src =
      { src
        before := cache
        result := (cache.get src).1
        compiled := if cache.lastSrc = some src then [] else [src]
        after := (cache.get src).2 } := by
  unfold call getM get compileNoted
  by_cases hkey : cache.lastSrc = some src
  · rw [if_neg (not_not.mpr hkey), if_neg (not_not.mpr hkey), if_pos hkey]
    rfl
  · rw [if_pos hkey, if_pos hkey, if_neg hkey]
    cases hc : compileOrError Y src <;> rfl

/-- A hit leaves the cache as it is. -/
theorem get_snd_of_hit {cache : RuleCache Y} {src : String} (h : cache.lastSrc = some src) :
    (cache.get src).2 = cache := by
  rw [get, if_neg (not_not.mpr h)]

theorem get_snd_of_error {cache : RuleCache Y} {src : String} {e : Stop}
    (h : (cache.get src).1 = .error e) : (cache.get src).2 = cache := by
  by_cases hkey : cache.lastSrc = some src
  · exact get_snd_of_hit hkey
  · rw [get, if_pos hkey] at h ⊢
    cases hc : compileOrError Y src with
    | error e' => rfl
    | ok rules =>
        -- the rules are just set, so `expect` does not fail
        rw [hc] at h
        cases h

theorem lastSrc_get_of_ok (cache : RuleCache Y) {src : String} {rules : Y.Rules}
    (h : compileOrError Y src = .ok rules) : (cache.get src).2.lastSrc = some src := by
  by_cases hkey : cache.lastSrc = some src
  · rw [get_snd_of_hit hkey, hkey]
  · rw [get, if_pos hkey, h]

/-- A cache that represents a memo is coherent: the memo's entry carries the proof. -/
theorem Represents.coherent {cache : RuleCache Y} {m : Memo (compileOrError Y)}
    (h : cache.Represents m) : cache.Coherent := by
  obtain ⟨hsrc, hrules⟩ := h
  cases m with
  | empty => exact .inl ⟨hsrc, hrules⟩
  | entry s r valid => exact .inr ⟨s, r, hsrc, hrules, compileRules_of_ok Y valid⟩

/-! ## Runs -/

theorem calls_map_src (cache : RuleCache Y) (srcs : List String) :
    (calls cache srcs).map Call.src = srcs := by
  induction srcs generalizing cache with
  | nil => rfl
  | cons src srcs ih => rw [calls, List.map_cons, ih, call_eq]

theorem calls_length (cache : RuleCache Y) (srcs : List String) :
    (calls cache srcs).length = srcs.length := by
  rw [← List.length_map Call.src, calls_map_src]

/-- A run goes on from the cache the first part leaves. -/
theorem calls_append (cache : RuleCache Y) (pre post : List String) :
    calls cache (pre ++ post) = calls cache pre ++ calls (cacheAfter cache pre) post := by
  induction pre generalizing cache with
  | nil => rfl
  | cons src pre ih =>
      rw [List.cons_append, calls, calls, List.cons_append, ih]
      rfl

/-- Call `k` of a run, the calls before it and the cache it starts from. -/
theorem calls_getElem? {cache : RuleCache Y} {srcs : List String} {k : ℕ} {c : Call Y}
    (h : (calls cache srcs)[k]? = some c) :
    (calls cache srcs).take k = calls cache (srcs.take k)
      ∧ ∃ src, c = (cacheAfter cache (srcs.take k)).call src := by
  induction srcs generalizing cache k with
  | nil => simp [calls] at h
  | cons src srcs ih =>
      cases k with
      | zero =>
          rw [calls, List.getElem?_cons_zero] at h
          exact ⟨rfl, src, (Option.some.inj h).symm⟩
      | succ k =>
          rw [calls, List.getElem?_cons_succ] at h
          obtain ⟨htake, hcall⟩ := ih h
          refine ⟨?_, hcall⟩
          rw [calls, List.take_succ_cons, htake, List.take_succ_cons, calls]

/-- The cache after a run represents the memo after it. -/
theorem cacheAfter_represents {cache : RuleCache Y} {m : Memo (compileOrError Y)}
    (h : cache.Represents m) (srcs : List String) :
    (cacheAfter cache srcs).Represents (m.after srcs) := by
  induction srcs generalizing cache m with
  | nil => exact h
  | cons src srcs ih =>
      show (cacheAfter (cache.call src).after srcs).Represents ((m.fetch src).2.after srcs)
      apply ih
      rw [call_eq]
      exact (get_represents h src).2

/-- A call of a run returns what the compiler gives. -/
theorem call_result {cache : RuleCache Y} {m : Memo (compileOrError Y)} (h : cache.Represents m)
    (src : String) : (cache.call src).result = compileOrError Y (cache.call src).src := by
  rw [call_eq]
  exact get_fst h src

/-- The last call that succeeded, read off the sources of the run. -/
theorem lastSuccess_calls {cache : RuleCache Y} {m : Memo (compileOrError Y)}
    (h : cache.Represents m) (srcs : List String) :
    lastSuccess (calls cache srcs)
      = (srcs.filter (fun src => (compileOrError Y src).isOk)).getLast? := by
  have hresult : ∀ c ∈ calls cache srcs, c.result.isOk = (compileOrError Y c.src).isOk := by
    intro c hc
    obtain ⟨k, hk⟩ := List.mem_iff_getElem?.mp hc
    obtain ⟨-, src, rfl⟩ := calls_getElem? hk
    rw [call_result (cacheAfter_represents h _)]
  rw [lastSuccess, List.filter_congr hresult, ← List.getLast?_map]
  conv_rhs => rw [← calls_map_src cache srcs, List.filter_map]
  rfl

/-- **The cache and the history.**  After a run from the default cache it holds the source
of the last call that succeeded. -/
theorem lastSrc_cacheAfter (srcs : List String) :
    (cacheAfter (default : RuleCache Y) srcs).lastSrc
      = lastSuccess (calls (default : RuleCache Y) srcs) := by
  rw [lastSuccess_calls default_represents,
    (cacheAfter_represents default_represents srcs).1, Memo.key?_after]
  exact Option.or_none

/-- The laws hold of a call whose cache is coherent and holds the source of the last
earlier success. -/
theorem callLaws {cache : RuleCache Y} {m : Memo (compileOrError Y)} {earlier : List (Call Y)}
    (h : cache.Represents m) (hlast : cache.lastSrc = lastSuccess earlier) (src : String) :
    CallLaws earlier (cache.call src) := by
  have hresult := call_result h src
  rw [call_eq] at hresult ⊢
  constructor
  · rfl
  · exact h.coherent
  · exact (get_represents h src).2.coherent
  · exact hresult
  · intro hpanic
    obtain ⟨e, he⟩ := compileOrError_eq_error Y (hresult.symm.trans hpanic)
    cases he
  · intro e he
    exact get_snd_of_error he
  · show (if cache.lastSrc = some src then [] else [src]) ≠ [] ↔ _
    rw [hlast]
    cases hs : lastSuccess earlier with
    | none => simp
    | some s => by_cases heq : s = src <;> simp [heq]
  · show (if cache.lastSrc = some src then [] else [src]) = [] ∨ _ = [src]
    split
    · exact .inl rfl
    · exact .inr rfl

/-! ## Repeated sources -/

/-- Calls with the stored source compile nothing. -/
theorem compiled_of_hit {cache : RuleCache Y} {src : String} (h : cache.lastSrc = some src)
    (m : ℕ) : (calls cache (List.replicate m src)).flatMap Call.compiled = [] := by
  induction m with
  | zero => rfl
  | succ m ih =>
      rw [List.replicate_succ, calls, List.flatMap_cons, call_eq]
      show (if cache.lastSrc = some src then [] else [src])
        ++ (calls (cache.get src).2 (List.replicate m src)).flatMap Call.compiled = []
      rw [if_pos h, get_snd_of_hit h, List.nil_append, ih]

/-- Successive calls with one compiling source compile it once at most. -/
theorem compiled_replicate (cache : RuleCache Y) {src : String} {rules : Y.Rules}
    (h : compileRules Y src = .ok rules) (m : ℕ) :
    ((calls cache (List.replicate m src)).flatMap Call.compiled).length ≤ 1 := by
  cases m with
  | zero => exact Nat.zero_le 1
  | succ m =>
      rw [List.replicate_succ, calls, List.flatMap_cons, call_eq]
      show ((if cache.lastSrc = some src then [] else [src])
        ++ (calls (cache.get src).2 (List.replicate m src)).flatMap Call.compiled).length ≤ 1
      rw [compiled_of_hit (lastSrc_get_of_ok cache (compileOrError_of_ok Y h)), List.append_nil]
      split
      · exact Nat.zero_le 1
      · exact le_refl 1

/-! ## Every run from the default cache -/

/-- **Coherence of every run.**  Every call of a run obeys the laws, the cache ends with the
source of the last success, and a block of calls with one compiling source costs one
compilation at most. -/
theorem calls_coherent (srcs : List String) :
    (calls (default : RuleCache Y) srcs).map Call.src = srcs
      ∧ (∀ k c, (calls (default : RuleCache Y) srcs)[k]? = some c →
          CallLaws ((calls default srcs).take k) c)
      ∧ (cacheAfter (default : RuleCache Y) srcs).Coherent
      ∧ (cacheAfter (default : RuleCache Y) srcs).lastSrc
          = lastSuccess (calls (default : RuleCache Y) srcs)
      ∧ ∀ pre m src post rules, srcs = pre ++ List.replicate m src ++ post →
          compileRules Y src = .ok rules →
          ((((calls (default : RuleCache Y) srcs).drop pre.length).take m).flatMap
            Call.compiled).length ≤ 1 := by
  refine ⟨calls_map_src _ _, ?_, ?_, lastSrc_cacheAfter srcs, ?_⟩
  · intro k c hc
    obtain ⟨htake, src, rfl⟩ := calls_getElem? hc
    rw [htake]
    exact callLaws (cacheAfter_represents default_represents _) (lastSrc_cacheAfter _) src
  · exact (cacheAfter_represents default_represents srcs).coherent
  · rintro pre m src post rules rfl hrules
    have hblock : ((calls (default : RuleCache Y) (pre ++ List.replicate m src ++ post)).drop
        pre.length).take m = calls (cacheAfter default pre) (List.replicate m src) := by
      rw [List.append_assoc, calls_append, List.drop_left' (calls_length _ _), calls_append,
        List.take_left' ((calls_length _ _).trans List.length_replicate)]
    rw [hblock]
    exact compiled_replicate _ hrules m

/-- An engine on which the source `bad` does not compile. -/
def rejectsBad : YaraX :=
  .ofTables (fun src => if src = "bad" then some "syntax error" else none) (fun _ _ => .ok [])

/-- A call that fails between two with one source costs neither of them a compilation
more. -/
theorem calls_coherent_bad :
    (∀ c, (calls (default : RuleCache rejectsBad) ["a", "bad", "a"])[2]? = some c →
      c.compiled = [])
      ∧ (((calls (default : RuleCache rejectsBad) ["bad", "a", "a"]).drop 1).take 2
          |>.flatMap Call.compiled).length ≤ 1 := by
  constructor
  · intro c hc
    have hlaws := (calls_coherent (Y := rejectsBad) ["a", "bad", "a"]).2.1 2 c hc
    have hlast : lastSuccess ((calls (default : RuleCache rejectsBad) ["a", "bad", "a"]).take 2)
        = some "a" := by decide
    have hsrc : c.src = "a" := by
      cases hc
      rfl
    by_contra hne
    have hmiss := hlaws.compiles_iff.mp hne
    rw [hlast] at hmiss
    rcases hmiss with h | ⟨s, hs, hdiffer⟩
    · cases h
    · exact hdiffer ((Option.some.inj hs).symm.trans hsrc.symm)
  · have hrules : compileRules rejectsBad "a" = .ok "a" := compileRules_ofTables _ _ "a"
    exact (calls_coherent (Y := rejectsBad) ["bad", "a", "a"]).2.2.2.2 ["bad"] 2 "a" [] "a" rfl
      hrules

end RuleCache

end YaraWorker
