/-
# What a scan asks of the engine

The loop of the scan scalars with its calls of the engine observed: `processKindM` is
`processKind` over an engine whose calls may have effects, and `EngineCalls.logged` notes
each source it is given to compile and each slice it is given to scan.

* `processKindM_silent` : without effects it is `processKind`;
* `processKindM_gives`, `processKindM_events` : the result is that of `processKind`, and the
  calls are those of `scanEvents`, in order, up to the row the call stops at;
* `engine_sees` : what the engine ever gets to see.
-/
import YaraWorker.BatchScan
import YaraWorker.CacheRuns
import YaraWorker.Traces

open Columnar FallibleRuns Traces

namespace YaraWorker

/-! ## The loop over an engine with effects -/

/-- The calls the worker makes into the engine. -/
structure EngineCalls (m : Type → Type) (Y : YaraX) where
  compile : String → m (Outcome Y.Rules)
  scan : Y.Rules → List UInt8 → m (Except Y.ScanError (List Rule))

section Effectful

variable {m : Type → Type} [Monad m] {Y : YaraX} (E : EngineCalls m Y)

/-- `scanRules`. -/
def scanRulesM (rules : Y.Rules) (data : List UInt8) : m (List RuleMatch) := do
  match ← E.scan rules (bounded data) with
  | .ok results =>
      pure (results.map
        (fun r => { rule := r.identifier, nameSpace := r.nameSpace, tags := r.tags }))
  | .error _ => pure []

variable (A : Arrow)

/-- `Out.append`. -/
def Out.appendM {A : Arrow} (out : Out A) (rules : Y.Rules) (data : List UInt8) :
    m (Outcome (Out A)) :=
  match out with
  | Matches b => do
      let any := !(← scanRulesM E rules data).isEmpty
      pure (Matches <$> A.booleanBuilder.appendValue b any)
  | FirstRule b => do
      let m ← scanRulesM E rules data
      match m.head? with
      | some first => pure (FirstRule <$> A.stringBuilder.appendValue b first.rule)
      | none => pure (pure (FirstRule (A.stringBuilder.appendNull b)))
  | MatchCount b => do
      let n := Int32.ofNat (← scanRulesM E rules data).length
      pure (MatchCount <$> A.int32Builder.appendValue b n)

/-- `processRow`. -/
def processRowM (dataCol rulesCol : A.ArrayRef) (state : RuleCache Y × Out A) (i : ℕ) :
    ExceptT Stop m (RuleCache Y × Out A) := do
  let (cache, out) := state
  let data ← ExceptT.mk (pure (blobBytes A dataCol i))
  let src ← ExceptT.mk (pure (textStr A rulesCol i))
  match data, src with
  | some bytes, some src => do
      let (rules, cache) ← ExceptT.lift (cache.getM E.compile src)
      let rules ← ExceptT.mk (pure rules)
      let out ← ExceptT.mk (out.appendM E rules bytes)
      pure (cache, out)
  | _, _ => pure (cache, out.appendNull)

/-- `processKind`. -/
def processKindM (kind : Kind) (params : ProcessParams) (batch : A.RecordBatch) :
    ExceptT Stop m A.RecordBatch := do
  let dataCol := A.column batch 0
  let rulesCol := A.column batch 1
  let rows := A.numRows batch
  let (_, out) ← (List.range rows).foldlM (processRowM E A dataCol rulesCol)
    (RuleCache.default, Out.new A kind)
  let arr := out.finish
  ExceptT.mk (pure ((A.tryNew params.outputSchema [arr]).mapError
    (fun e => .error (.runtimeError e))))

end Effectful

/-! ## The engine without effects -/

/-- The engine itself. -/
def EngineCalls.silent (Y : YaraX) : EngineCalls Id Y where
  compile := compileOrError Y
  scan := Y.scan

section Silent

variable {A : Arrow} {Y : YaraX}

theorem scanRulesM_silent (rules : Y.Rules) (data : List UInt8) :
    (scanRulesM (.silent Y) rules data).run = scanRules Y rules data := by
  unfold scanRulesM scanRules
  have hscan : (EngineCalls.silent Y).scan rules (bounded data) = Y.scan rules (bounded data) := rfl
  rw [Id.run_bind, hscan, Id.run]
  cases Y.scan rules (bounded data) <;> rfl

theorem appendM_silent (out : Out A) (rules : Y.Rules) (data : List UInt8) :
    (out.appendM (.silent Y) rules data).run = out.append Y rules data := by
  unfold Out.appendM Out.append
  cases out with
  | Matches b => rw [Id.run_bind, scanRulesM_silent, Id.run_pure]
  | FirstRule b =>
      rw [Id.run_bind, scanRulesM_silent]
      cases scanRules Y rules data <;> rfl
  | MatchCount b => rw [Id.run_bind, scanRulesM_silent, Id.run_pure]

theorem processRowM_silent (dataCol rulesCol : A.ArrayRef) (state : RuleCache Y × Out A) (i : ℕ) :
    (processRowM (.silent Y) A dataCol rulesCol state i).run.run
      = processRow A Y dataCol rulesCol state i := by
  obtain ⟨cache, out⟩ := state
  unfold processRowM processRow
  rcases blobBytes A dataCol i with e | data
  · rfl
  · rcases textStr A rulesCol i with e | src
    · rfl
    · rcases data with _ | bytes
      · rfl
      · rcases src with _ | src
        · rfl
        · have hget : cache.getM (EngineCalls.silent Y).compile src = Id.run (cache.get src) :=
            RuleCache.getM_pure cache src
          show Id.run (ExceptT.run (do
            let (rules, cache) ← ExceptT.lift (cache.getM (EngineCalls.silent Y).compile src)
            let rules ← ExceptT.mk (pure rules)
            let out ← ExceptT.mk (out.appendM (EngineCalls.silent Y) rules bytes)
            pure (cache, out))) = (do
            let out ← out.append Y (← (cache.get src).1) bytes
            pure ((cache.get src).2, out))
          rw [hget]
          rcases cache.get src with ⟨e | rules, cache'⟩
          · rfl
          · show Id.run (ExceptT.run (do
              let out ← ExceptT.mk (out.appendM (EngineCalls.silent Y) rules bytes)
              pure (cache', out))) = (do
              let out ← out.append Y rules bytes
              pure (cache', out))
            rw [ExceptT.run_bind, Id.run_bind, ExceptT.run_mk, appendM_silent]
            cases out.append Y rules bytes <;> rfl

/-- With these calls the loop is `processKind`. -/
theorem processKindM_silent (A : Arrow) (Y : YaraX) (kind : Kind) (params : ProcessParams)
    (batch : A.RecordBatch) :
    (processKindM (.silent Y) A kind params batch).run.run = processKind A Y kind params batch := by
  have hloop := idRun_foldlM (processRowM_silent (Y := Y) (A.column batch 0) (A.column batch 1))
    (List.range (A.numRows batch)) (RuleCache.default, Out.new A kind)
  unfold processKindM processKind
  dsimp only
  rw [ExceptT.run_bind, Id.run_bind, hloop]
  cases (List.range (A.numRows batch)).foldlM
    (processRow A Y (A.column batch 0) (A.column batch 1)) _ <;> rfl

end Silent

/-! ## The observed engine -/

/-- A call of the engine. -/
inductive EngineEvent (Y : YaraX)
  | compile (src : String)
  | scan (rules : Y.Rules) (slice : List UInt8)

/-- The engine, which notes each call. -/
def EngineCalls.logged (Y : YaraX) : EngineCalls (StateM (List (EngineEvent Y))) Y where
  compile src := do
    emit (.compile src)
    pure (compileOrError Y src)
  scan rules slice := do
    emit (.scan rules slice)
    pure (Y.scan rules slice)

/-- A row as the loop reads it. -/
abbrev ScanRow := Outcome (Option (List UInt8 × String))

/-- The calls for one row, when the last source was `last`. -/
def rowEvents (Y : YaraX) (last : Option String) : ScanRow → List (EngineEvent Y)
  | .ok (some (bytes, src)) =>
      (if last = some src then [] else [.compile src]) ++
        match compileOrError Y src with
        | .ok rules => [.scan rules (bytes.take maxDataLen)]
        | .error _ => []
  | _ => []

/-- The calls for a column of rows: a source is compiled when it is not that of the last row
with both operands, and nothing is called after a row that fails. -/
def scanEvents (Y : YaraX) : Option String → List ScanRow → List (EngineEvent Y)
  | _, [] => []
  | _, .error _ :: _ => []
  | last, .ok none :: rows => scanEvents Y last rows
  | last, .ok (some (bytes, src)) :: rows =>
      rowEvents Y last (.ok (some (bytes, src))) ++
        match compileOrError Y src with
        | .ok _ => scanEvents Y (some src) rows
        | .error _ => []

/-- The rows of a batch. -/
def scanRows (A : Arrow) (batch : A.RecordBatch) : List ScanRow :=
  (List.range (A.numRows batch)).map (operands A (A.column batch 0) (A.column batch 1))

/-- The rows of a batch of a BLOB column and a VARCHAR column. -/
theorem scanRows_columns (data : List (Option (List UInt8))) (rules : List (Option String))
    (hlen : rules.length = data.length) :
    scanRows columnar ⟨[], [blobColumn .Binary data, textColumn .Utf8 rules], data.length⟩
      = List.zipWith (fun bytes src => .ok (bytes.bind (fun bytes =>
          src.map (fun src => (bytes, src))))) data rules := by
  apply List.ext_getElem
  · simp [scanRows, hlen]
    rfl
  · intro i hi hi'
    have hdata : i < data.length := by
      rw [List.length_zipWith] at hi'
      omega
    rw [List.getElem_zipWith]
    simp only [scanRows, List.getElem_map, List.getElem_range]
    exact operands_columns data rules hdata (hlen ▸ hdata)

section Logged

variable {A : Arrow} {Y : YaraX}

theorem compile_logged (src : String) (log : List (EngineEvent Y)) :
    ((EngineCalls.logged Y).compile src).run log
      = (compileOrError Y src, log ++ [.compile src]) := rfl

theorem scan_logged (rules : Y.Rules) (slice : List UInt8) (log : List (EngineEvent Y)) :
    ((EngineCalls.logged Y).scan rules slice).run log
      = (Y.scan rules slice, log ++ [.scan rules slice]) := rfl

theorem getM_logged (cache : RuleCache Y) (src : String) (log : List (EngineEvent Y)) :
    (cache.getM (EngineCalls.logged Y).compile src).run log
      = (cache.get src, log ++ if cache.lastSrc = some src then [] else [.compile src]) := by
  unfold RuleCache.getM RuleCache.get
  by_cases hkey : cache.lastSrc = some src
  · rw [if_neg (not_not.mpr hkey), if_neg (not_not.mpr hkey), if_pos hkey, List.append_nil]
    rfl
  · rw [if_pos hkey, if_pos hkey, if_neg hkey, StateT.run_bind, compile_logged]
    cases compileOrError Y src <;> rfl

theorem scanRulesM_logged (rules : Y.Rules) (data : List UInt8) (log : List (EngineEvent Y)) :
    (scanRulesM (EngineCalls.logged Y) rules data).run log
      = (scanRules Y rules data, log ++ [.scan rules (data.take maxDataLen)]) := by
  unfold scanRulesM scanRules
  rw [StateT.run_bind, scan_logged, bounded_eq_take]
  cases Y.scan rules (data.take maxDataLen) <;> rfl

theorem appendM_logged (out : Out A) (rules : Y.Rules) (data : List UInt8)
    (log : List (EngineEvent Y)) :
    (out.appendM (EngineCalls.logged Y) rules data).run log
      = (out.append Y rules data, log ++ [.scan rules (data.take maxDataLen)]) := by
  unfold Out.appendM Out.append
  cases out with
  | Matches b =>
      rw [StateT.run_bind, scanRulesM_logged]
      rfl
  | FirstRule b =>
      rw [StateT.run_bind, scanRulesM_logged]
      cases scanRules Y rules data <;> rfl
  | MatchCount b =>
      rw [StateT.run_bind, scanRulesM_logged]
      rfl

/-- **The calls for one row**, when the cache holds what a memo of the compiler holds. -/
theorem processRowM_gives (dataCol rulesCol : A.ArrayRef) {state : RuleCache Y × Out A}
    {m : Memo (compileOrError Y)} (hm : state.1.Represents m) (i : ℕ) :
    Gives (processRowM (EngineCalls.logged Y) A dataCol rulesCol state i)
      (processRow A Y dataCol rulesCol state i)
      (rowEvents Y state.1.lastSrc (operands A dataCol rulesCol i)) := by
  obtain ⟨cache, out⟩ := state
  unfold processRowM processRow operands
  rcases blobBytes A dataCol i with e | data
  · exact (Gives.result (.error e)).bind_error _
  · refine (Gives.result (.ok data)).bind_ok ?_
    rcases textStr A rulesCol i with e | src
    · exact (Gives.result (.error e)).bind_error _
    · refine (Gives.result (.ok src)).bind_ok ?_
      rcases data with _ | bytes
      · exact Gives.result _
      · rcases src with _ | src
        · exact Gives.result _
        · have hget := RuleCache.get_fst hm src
          refine (Gives.lift (getM_logged cache src)).bind_ok ?_
          show Gives (do
            let rules ← ExceptT.mk (pure (cache.get src).1)
            let out ← ExceptT.mk (out.appendM (EngineCalls.logged Y) rules bytes)
            pure ((cache.get src).2, out)) (do
            let out ← out.append Y (← (cache.get src).1) bytes
            pure ((cache.get src).2, out)) _
          rw [hget]
          cases compileOrError Y src with
          | error e => exact (Gives.result (.error e)).bind_error _
          | ok rules =>
              refine (Gives.result (.ok rules)).bind_ok ?_
              have happend : Gives (ExceptT.mk (out.appendM (EngineCalls.logged Y) rules bytes))
                  (out.append Y rules bytes) _ := appendM_logged out rules bytes
              exact happend.bind_silent (fun out => Gives.result (.ok ((cache.get src).2, out)))

/-! ## The whole call -/

/-- A row with both operands whose source compiles: what the loop body does. -/
theorem processRow_of_rules {kind : Kind} {dataCol rulesCol : A.ArrayRef}
    {state : RuleCache Y × Out A} {cells : List Cell} (h : Tracks kind state cells) {i : ℕ}
    {bytes : List UInt8} {src : String} {rules : Y.Rules}
    (hoperands : operands A dataCol rulesCol i = .ok (some (bytes, src)))
    (hrules : compileOrError Y src = .ok rules) :
    processRow A Y dataCol rulesCol state i = .error .panic
      ∨ ∃ out, processRow A Y dataCol rulesCol state i = .ok ((state.1.get src).2, out) := by
  obtain ⟨cache, out⟩ := state
  obtain ⟨⟨m, hm⟩, -, rfl, hfits⟩ := h
  have hget : (cache.get src).1 = .ok rules := (RuleCache.get_fst hm src).trans hrules
  obtain ⟨hok, hpanic⟩ := Out.append_spec hfits rules bytes
  have hrow : processRow A Y dataCol rulesCol (cache, out) i
      = (out.append Y rules bytes).bind (fun out => .ok ((cache.get src).2, out)) := by
    rw [processRow_eq, hoperands]
    show (do
      let out ← out.append Y (← (cache.get src).1) bytes
      pure ((cache.get src).2, out)) = _
    rw [hget]
    rfl
  rw [hrow]
  by_cases hroom : FitsCells (out.cells ++ [out.kind.project (scanRules Y rules bytes)])
  · obtain ⟨out', hout, -, -⟩ := hok hroom
    exact .inr ⟨out', by rw [hout]; rfl⟩
  · exact .inl (by rw [hpanic hroom]; rfl)

/-- A row that does not stop the loop leaves a state that has appended its cells. -/
theorem exists_tracks_of_processRow {kind : Kind} {dataCol rulesCol : A.ArrayRef}
    {state state' : RuleCache Y × Out A} {cells : List Cell} (h : Tracks kind state cells) {i : ℕ}
    (hrow : processRow A Y dataCol rulesCol state i = .ok state') :
    ∃ cells', Tracks kind state' cells' := by
  have hagree : Agree (Tracks kind) (processRow A Y dataCol rulesCol state i) _ :=
    processRow_agree h i
  rw [hrow] at hagree
  obtain ⟨cells', -, htracks⟩ := hagree.exists_of_ok
  exact ⟨cells', htracks⟩

/-- **The calls of a run** of the loop: those of `scanEvents`, up to the row it stops at. -/
theorem runEvents_processRow {kind : Kind} (dataCol rulesCol : A.ArrayRef) (rows : List ℕ)
    {state : RuleCache Y × Out A} {cells : List Cell} (h : Tracks kind state cells) :
    ∃ k ≤ rows.length,
      runEvents (processRow A Y dataCol rulesCol)
          (fun state i => rowEvents Y state.1.lastSrc (operands A dataCol rulesCol i)) state rows
        = scanEvents Y state.1.lastSrc ((rows.map (operands A dataCol rulesCol)).take k)
      ∧ (rows.foldlM (processRow A Y dataCol rulesCol) state ≠ .error .panic → k = rows.length) := by
  induction rows generalizing state cells with
  | nil => exact ⟨0, le_refl 0, rfl, fun _ => rfl⟩
  | cons i rows ih =>
      rw [List.foldlM_cons, List.map_cons, List.length_cons, runEvents]
      rcases hoperands : operands A dataCol rulesCol i with e | _ | ⟨bytes, src⟩
      · have hrow : processRow A Y dataCol rulesCol state i = .error e := by
          rw [processRow_eq, hoperands]
          rfl
        rw [hrow]
        exact ⟨rows.length + 1, le_refl _, rfl, fun _ => rfl⟩
      · have hrow : processRow A Y dataCol rulesCol state i = .ok (state.1, state.2.appendNull) := by
          rw [processRow_eq, hoperands]
          rfl
        rw [hrow]
        obtain ⟨cells', htracks⟩ := exists_tracks_of_processRow h hrow
        obtain ⟨k, hk, hevents, hall⟩ := ih htracks
        refine ⟨k + 1, by omega, ?_, fun hne => by rw [hall hne]⟩
        rw [List.take_succ_cons, scanEvents, ← hevents]
        rfl
      · cases hrules : compileOrError Y src with
        | error e =>
            have hrow : processRow A Y dataCol rulesCol state i = .error e := by
              obtain ⟨⟨m, hm⟩, -⟩ := h
              have hget : (state.1.get src).1 = .error e :=
                (RuleCache.get_fst hm src).trans hrules
              rw [processRow_eq, hoperands]
              show (do
                let out ← state.2.append Y (← (state.1.get src).1) bytes
                pure ((state.1.get src).2, out)) = _
              rw [hget]
              rfl
            refine ⟨rows.length + 1, le_refl _, ?_, fun _ => rfl⟩
            rw [hrow, List.take_succ_cons, scanEvents, hrules]
        | ok rules =>
            rcases processRow_of_rules h hoperands hrules with hrow | ⟨out, hrow⟩
            · refine ⟨1, by omega, ?_, fun hne => absurd ?_ hne⟩
              · rw [hrow, List.take_succ_cons, scanEvents, hrules]
                rfl
              · rw [hrow]
                rfl
            · obtain ⟨cells', htracks⟩ := exists_tracks_of_processRow h hrow
              obtain ⟨k, hk, hevents, hall⟩ := ih htracks
              rw [hrow]
              refine ⟨k + 1, by omega, ?_, fun hne => by rw [hall hne]⟩
              rw [List.take_succ_cons, scanEvents, hrules]
              show _ ++ runEvents _ _ ((state.1.get src).2, out) rows = _
              rw [hevents, RuleCache.lastSrc_get_of_ok _ hrules]

/-- The whole call over the observed engine. -/
theorem processKindM_gives (A : Arrow) (Y : YaraX) (kind : Kind) (params : ProcessParams)
    (batch : A.RecordBatch) :
    ∃ k ≤ A.numRows batch,
      Gives (processKindM (EngineCalls.logged Y) A kind params batch)
        (processKind A Y kind params batch) (scanEvents Y none ((scanRows A batch).take k))
      ∧ (processKind A Y kind params batch ≠ .error .panic → k = A.numRows batch) := by
  have hloop := Gives.foldlM
    (fun state : RuleCache Y × Out A => ∃ cells, Tracks kind state cells)
    (fun state i ⟨_, ⟨_, hm⟩, _⟩ =>
      processRowM_gives (A.column batch 0) (A.column batch 1) hm i)
    (fun _ _ _ ⟨_, h⟩ hrow => exists_tracks_of_processRow h hrow)
    (List.range (A.numRows batch)) ⟨[], tracks_new A Y kind⟩
  have hcall : Gives (processKindM (EngineCalls.logged Y) A kind params batch)
      (processKind A Y kind params batch) _ :=
    hloop.bind_silent (fun state => Gives.result _)
  obtain ⟨k, hk, hevents, hall⟩ := runEvents_processRow (A.column batch 0) (A.column batch 1)
    (List.range (A.numRows batch)) (tracks_new A Y kind)
  rw [List.length_range] at hk hall
  refine ⟨k, hk, ?_, ?_⟩
  · rw [hevents] at hcall
    exact hcall
  · intro hne
    apply hall
    intro hpanic
    apply hne
    show Except.bind _ _ = _
    rw [hpanic]
    rfl

end Logged

/-- The calls `process_kind` makes. -/
def engineEvents (A : Arrow) (Y : YaraX) (kind : Kind) (params : ProcessParams)
    (batch : A.RecordBatch) : List (EngineEvent Y) :=
  ((processKindM (EngineCalls.logged Y) A kind params batch).run.run []).2

/-- The calls of a call are those of `scanEvents`, up to some row. -/
theorem engineEvents_eq_scanEvents (A : Arrow) (Y : YaraX) (kind : Kind) (params : ProcessParams)
    (batch : A.RecordBatch) :
    ∃ k ≤ A.numRows batch,
      engineEvents A Y kind params batch = scanEvents Y none ((scanRows A batch).take k)
      ∧ (processKind A Y kind params batch ≠ .error .panic → k = A.numRows batch) := by
  obtain ⟨k, hk, hgives, hall⟩ := processKindM_gives A Y kind params batch
  refine ⟨k, hk, ?_, hall⟩
  rw [engineEvents, hgives []]
  rfl

/-- The calls of a call that succeeds cover all rows. -/
theorem engineEvents_of_ok {A : Arrow} {Y : YaraX} {kind : Kind} {params : ProcessParams}
    {batch b : A.RecordBatch} (h : processKind A Y kind params batch = .ok b) :
    engineEvents A Y kind params batch = scanEvents Y none (scanRows A batch) := by
  obtain ⟨k, -, hevents, hall⟩ := engineEvents_eq_scanEvents A Y kind params batch
  have hk : k = A.numRows batch := hall (by rw [h]; simp)
  rw [hevents, hk, List.take_of_length_le]
  rw [scanRows, List.length_map, List.length_range]

/-- **The calls of a call.**  Without effects the loop is `processKind`.  Over the observed
engine it returns the same, and its calls are those of `scanEvents` on the rows up to the one
it stops at: on all rows, unless a column builder panics. -/
theorem processKindM_events (A : Arrow) (Y : YaraX) (kind : Kind) (params : ProcessParams)
    (batch : A.RecordBatch) :
    (processKindM (.silent Y) A kind params batch).run.run = processKind A Y kind params batch
    ∧ (∀ log, (processKindM (EngineCalls.logged Y) A kind params batch).run.run log
      = (processKind A Y kind params batch, log ++ engineEvents A Y kind params batch))
    ∧ ∃ k ≤ A.numRows batch,
        engineEvents A Y kind params batch = scanEvents Y none ((scanRows A batch).take k)
        ∧ (processKind A Y kind params batch ≠ .error .panic → k = A.numRows batch) := by
  refine ⟨processKindM_silent A Y kind params batch, ?_,
    engineEvents_eq_scanEvents A Y kind params batch⟩
  intro log
  obtain ⟨k, hk, hgives, hall⟩ := processKindM_gives A Y kind params batch
  rw [engineEvents, hgives log, hgives []]
  rfl

/-! ## What the engine sees -/

section Sees

variable {Y : YaraX} {last : Option String} {bytes : List UInt8} {src : String}
  {rows : List ScanRow}

theorem scanEvents_of_ok {rules : Y.Rules} (h : compileOrError Y src = .ok rules) :
    scanEvents Y last (.ok (some (bytes, src)) :: rows)
      = (if last = some src then [] else [.compile src])
        ++ .scan rules (bytes.take maxDataLen) :: scanEvents Y (some src) rows := by
  rw [scanEvents, rowEvents, h, List.append_assoc]
  rfl

theorem scanEvents_of_error {e : Stop} (h : compileOrError Y src = .error e) :
    scanEvents Y last (.ok (some (bytes, src)) :: rows)
      = if last = some src then [] else [.compile src] := by
  rw [scanEvents, rowEvents, h, List.append_nil, List.append_nil]

/-- A compiled source is that of a row with both operands. -/
theorem mem_scanEvents_compile {src : String} (h : .compile src ∈ scanEvents Y last rows) :
    ∃ bytes, (.ok (some (bytes, src)) : ScanRow) ∈ rows := by
  induction rows generalizing last with
  | nil => simp [scanEvents] at h
  | cons row rows ih =>
      have hlater : ∀ last, .compile src ∈ scanEvents Y last rows →
          ∃ bytes, (.ok (some (bytes, src)) : ScanRow) ∈ row :: rows := by
        intro last hlast
        obtain ⟨bytes, hmem⟩ := ih hlast
        exact ⟨bytes, List.mem_cons_of_mem row hmem⟩
      rcases row with e | _ | ⟨bytes, src'⟩
      · simp [scanEvents] at h
      · exact hlater last h
      · have hcompile : EngineEvent.compile (Y := Y) src
              ∈ (if last = some src' then [] else [EngineEvent.compile (Y := Y) src']) →
            src = src' := by
          intro hmem
          split at hmem <;> simp_all
        cases hrules : compileOrError Y src' with
        | error e =>
            rw [scanEvents_of_error hrules] at h
            obtain rfl := hcompile h
            exact ⟨bytes, List.mem_cons_self⟩
        | ok rules =>
            rw [scanEvents_of_ok hrules, List.mem_append, List.mem_cons] at h
            rcases h with h | h | h
            · obtain rfl := hcompile h
              exact ⟨bytes, List.mem_cons_self⟩
            · cases h
            · exact hlater _ h

/-- A scan is that of a row whose source was compiled before, or is the last one. -/
theorem compiled_before_scan {pre post : List (EngineEvent Y)} {rules : Y.Rules}
    {slice : List UInt8} (h : scanEvents Y last rows = pre ++ .scan rules slice :: post) :
    ∃ bytes src, (.ok (some (bytes, src)) : ScanRow) ∈ rows ∧ slice = bytes.take maxDataLen
      ∧ compileOrError Y src = .ok rules ∧ (.compile src ∈ pre ∨ last = some src) := by
  induction rows generalizing last pre with
  | nil => simp [scanEvents] at h
  | cons row rows ih =>
      rcases row with e | _ | ⟨bytes, src⟩
      · simp [scanEvents] at h
      · obtain ⟨bytes, src, hmem, hscan⟩ := ih h
        exact ⟨bytes, src, List.mem_cons_of_mem _ hmem, hscan⟩
      · cases hrules : compileOrError Y src with
        | error e =>
            -- at most one call, and it is no scan
            rw [scanEvents_of_error hrules] at h
            split at h
            · simp at h
            · rcases pre with _ | ⟨ev, pre⟩ <;> simp at h
        | ok rules' =>
            have hrest : ∀ pre, EngineEvent.scan rules' (bytes.take maxDataLen)
                :: scanEvents Y (some src) rows = pre ++ .scan rules slice :: post →
                  ∃ bytes' src', (.ok (some (bytes', src')) : ScanRow)
                      ∈ .ok (some (bytes, src)) :: rows ∧ slice = bytes'.take maxDataLen
                    ∧ compileOrError Y src' = .ok rules
                    ∧ (.compile src' ∈ pre ∨ some src = some src') := by
              intro pre hpre
              rcases pre with _ | ⟨ev, pre⟩
              · simp only [List.nil_append, List.cons.injEq, EngineEvent.scan.injEq] at hpre
                obtain ⟨⟨rfl, rfl⟩, -⟩ := hpre
                exact ⟨bytes, src, List.mem_cons_self, rfl, hrules, .inr rfl⟩
              · simp only [List.cons_append, List.cons.injEq] at hpre
                obtain ⟨bytes', src', hmem, hslice, hsrc', hbefore⟩ := ih hpre.2
                exact ⟨bytes', src', List.mem_cons_of_mem _ hmem, hslice, hsrc',
                  hbefore.imp_left (List.mem_cons_of_mem ev)⟩
            rw [scanEvents_of_ok hrules] at h
            split at h
            · next hlast =>
              rw [hlast]
              exact hrest pre h
            · rcases pre with _ | ⟨ev, pre⟩
              · simp at h
              · simp only [List.cons_append, List.nil_append, List.cons.injEq] at h
                obtain ⟨bytes', src', hmem, hslice, hsrc', hbefore⟩ := hrest pre h.2
                refine ⟨bytes', src', hmem, hslice, hsrc', .inl ?_⟩
                rcases hbefore with hbefore | hsame
                · exact List.mem_cons_of_mem ev hbefore
                · cases hsame
                  exact h.1 ▸ List.mem_cons_self

end Sees

/-- **What the engine sees**, in every call, also one that fails or panics.  Each call of the
engine is made for a row with both operands: it compiles the row's source, or it scans the
first `maxDataLen` bytes of the row's data with the rules of the row's source, which was
compiled before in the same call. -/
theorem engine_sees (A : Arrow) (Y : YaraX) (kind : Kind) (params : ProcessParams)
    (batch : A.RecordBatch) :
    (∀ src, .compile src ∈ engineEvents A Y kind params batch →
      ∃ i < A.numRows batch, ∃ bytes,
        operands A (A.column batch 0) (A.column batch 1) i = .ok (some (bytes, src)))
    ∧ ∀ pre rules slice post,
        engineEvents A Y kind params batch = pre ++ .scan rules slice :: post →
        ∃ i < A.numRows batch, ∃ bytes src,
          operands A (A.column batch 0) (A.column batch 1) i = .ok (some (bytes, src))
          ∧ slice = bytes.take maxDataLen ∧ slice.length ≤ maxDataLen
          ∧ compileOrError Y src = .ok rules ∧ .compile src ∈ pre := by
  obtain ⟨k, hk, hevents, -⟩ := engineEvents_eq_scanEvents A Y kind params batch
  have hrow : ∀ bytes src,
      (.ok (some (bytes, src)) : ScanRow) ∈ (scanRows A batch).take k →
        ∃ i < A.numRows batch,
          operands A (A.column batch 0) (A.column batch 1) i = .ok (some (bytes, src)) := by
    intro bytes src hmem
    obtain ⟨i, hi, hi'⟩ := List.mem_map.mp (List.mem_of_mem_take hmem)
    exact ⟨i, List.mem_range.mp hi, hi'⟩
  rw [hevents]
  refine ⟨?_, ?_⟩
  · intro src hev
    obtain ⟨bytes, hmem⟩ := mem_scanEvents_compile hev
    obtain ⟨i, hi, hoperands⟩ := hrow bytes src hmem
    exact ⟨i, hi, bytes, hoperands⟩
  · intro pre rules slice post h
    obtain ⟨bytes, src, hmem, rfl, hrules, hbefore⟩ := compiled_before_scan h
    obtain ⟨i, hi, hoperands⟩ := hrow bytes src hmem
    refine ⟨i, hi, bytes, src, hoperands, rfl, List.length_take_le _ _, hrules, ?_⟩
    -- a fresh cache has no last source
    rcases hbefore with hbefore | hlast
    · exact hbefore
    · cases hlast

/-- In `repeatedBatch` each source is compiled and then scans its row; the row without data
makes no call. -/
theorem engine_sees_repeated :
    engineEvents columnar echo .FirstRule (.ofSchema (onBind .named .FirstRule)) repeatedBatch
      = [.compile "r", .scan "r" [1], .compile "s", .scan "s" [2], .compile "r", .scan "r" []]
    ∧ (∃ i < 4, ∃ bytes, operands columnar (columnar.column repeatedBatch 0)
        (columnar.column repeatedBatch 1) i = .ok (some (bytes, "s")))
    ∧ ∃ i < 4, ∃ bytes src, operands columnar (columnar.column repeatedBatch 0)
        (columnar.column repeatedBatch 1) i = .ok (some (bytes, src))
      ∧ [2] = bytes.take maxDataLen ∧ compileOrError echo src = .ok "s" := by
  obtain ⟨b, hb⟩ := exists_processKind_repeatedBatch
  have hevents : engineEvents columnar echo .FirstRule (.ofSchema (onBind .named .FirstRule))
      repeatedBatch = [.compile "r", .scan "r" [1], .compile "s", .scan "s" [2], .compile "r",
        .scan "r" []] :=
    (engineEvents_of_ok hb).trans (congrArg (scanEvents echo none) (scanRows_columns _ _ rfl))
  obtain ⟨hcompiled, hscanned⟩ := engine_sees columnar echo .FirstRule
    (.ofSchema (onBind .named .FirstRule)) repeatedBatch
  have hs := hcompiled "s"
  rw [hevents] at hs
  obtain ⟨i, hi, bytes, src, hoperands, hslice, -, hrules, -⟩ := hscanned
    [.compile "r", .scan "r" [1], .compile "s"] "s" [2] [.compile "r", .scan "r" []] hevents
  exact ⟨hevents, hs (by simp), i, hi, bytes, src, hoperands, hslice, hrules⟩

end YaraWorker
