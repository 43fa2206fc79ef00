/-
# Compiling and scanning (`scanning.rs`)

The worker's pure logic.  Compiling a rule source is the only step that reports
an error; scanning is total, a scanner error counts as no match, and the data is
cut to `maxDataLen` bytes before the engine sees it.
-/
import YaraWorker.Engine
import YaraWorker.HexText

open Utf8Bytes HexText

namespace YaraWorker

/-! ## Errors and rows -/

/-- A processing error, in practice always a rule-compilation error. -/
structure YaraError where
  message : String
  deriving DecidableEq, Repr

/-- The `Display` text of an error. -/
def YaraError.toString (e : YaraError) : String := e.message

/-- `MAX_DATA_LEN`, 64 MiB. -/
def maxDataLen : ℕ := 64 * 1024 * 1024

/-- One matching rule. -/
structure RuleMatch where
  rule : String
  nameSpace : String
  tags : List String
  deriving DecidableEq, Repr

/-- One pattern hit within a matching rule. -/
structure StringMatch where
  rule : String
  identifier : String
  offset : UInt64
  matched : String
  deriving DecidableEq

/-! ## Compiling -/

section Compile

variable (Y : YaraX)

def compileRules (source : String) : Except YaraError Y.Rules := do
  let compiler ← (Y.addSource Y.new source).mapError
    (fun e => ⟨"invalid YARA rule: " ++ Y.display e⟩)
  pure (Y.build compiler)

/-- `compile_rules(src).map_err(|e| RpcError::value_error(e.to_string()))`, as every
caller has it. -/
def compileOrError (src : String) : Outcome Y.Rules :=
  (compileRules Y src).mapError (fun e => .error (.valueError e.toString))

theorem compileOrError_of_ok {src : String} {rules : Y.Rules} (h : compileRules Y src = .ok rules) :
    compileOrError Y src = .ok rules := by
  rw [compileOrError, h]
  rfl

theorem compileRules_of_ok {src : String} {rules : Y.Rules} (h : compileOrError Y src = .ok rules) :
    compileRules Y src = .ok rules := by
  unfold compileOrError at h
  rcases hrules : compileRules Y src with e | rules'
  · rw [hrules] at h
    cases h
  · rw [hrules] at h
    exact congrArg Except.ok (Except.ok.inj h)

theorem compileRules_ofTables (diagnostic : String → Option String)
    (outcome : String → List UInt8 → Except Unit (List Rule)) (source : String) :
    compileRules (.ofTables diagnostic outcome) source
      = (diagnostic source).elim (.ok source) (fun d => .error ⟨"invalid YARA rule: " ++ d⟩) := by
  have hadd : (YaraX.ofTables diagnostic outcome).addSource "" source
      = (diagnostic source).elim (.ok ("" ++ source)) .error := rfl
  rw [String.empty_append] at hadd
  show (((YaraX.ofTables diagnostic outcome).addSource "" source).mapError _).bind _ = _
  rw [hadd]
  cases diagnostic source <;> rfl

/-- `compile_rules(source).is_ok()`. -/
def rulesCompile (source : String) : Bool := (compileRules Y source).isOk

/-- A source compiles when `yara_check` says so. -/
theorem rulesCompile_eq_true_iff (source : String) :
    rulesCompile Y source = true ↔ ∃ rules, compileOrError Y source = .ok rules := by
  unfold rulesCompile compileOrError
  rcases compileRules Y source with e | rules
  · simp [Except.isOk, Except.toBool, Except.mapError]
  · simp [Except.isOk, Except.toBool, Except.mapError]

/-- A failing source is always reported, never a panic. -/
theorem compileOrError_eq_error {source : String} {stop : Stop}
    (h : compileOrError Y source = .error stop) : ∃ e, stop = .error e := by
  unfold compileOrError at h
  rcases hrules : compileRules Y source with e | rules
  · rw [hrules] at h
    cases h
    exact ⟨_, rfl⟩
  · rw [hrules] at h
    cases h

end Compile

/-! ## Bounding and rendering -/

/-- Truncate untrusted data before handing it to the scanner. -/
def bounded (data : List UInt8) : List UInt8 :=
  if data.length > maxDataLen then data.take maxDataLen else data

/-- `char::is_control`: the general category Cc. -/
def isControl (c : Char) : Bool := c.toNat ≤ 0x1F || (0x7F ≤ c.toNat && c.toNat ≤ 0x9F)

/-- Matched bytes as text if they are printable UTF-8, else as lowercase hex. -/
def renderMatched (bytes : List UInt8) : String :=
  match fromUtf8 bytes with
  | some s => if s.toList.all (fun c => !isControl c || c == '\t') then s else hexText bytes
  | none => hexText bytes

theorem bounded_eq_take (data : List UInt8) : bounded data = data.take maxDataLen := by
  unfold bounded
  by_cases h : data.length > maxDataLen
  · rw [if_pos h]
  · rw [if_neg h, List.take_of_length_le (by omega)]

/-! ## Scanning -/

section Scan

variable (Y : YaraX)

/-- Every matching rule; a scanner error gives no rows. -/
def scanRules (rules : Y.Rules) (data : List UInt8) : List RuleMatch :=
  match Y.scan rules (bounded data) with
  | .ok results =>
      results.map (fun r => { rule := r.identifier, nameSpace := r.nameSpace, tags := r.tags })
  -- a scan failure (limit/timeout/internal) is treated as "no matches"
  | .error _ => []

/-- The row `scan_strings` pushes for one hit. -/
def stringMatch (r : Rule) (p : Pattern) (m : Match) : StringMatch where
  rule := r.identifier
  identifier := p.identifier
  offset := UInt64.ofNat m.start
  matched := renderMatched m.data

/-- One row for each pattern hit; a scanner error gives no rows.  The three loops
push onto one vector. -/
def scanStrings (rules : Y.Rules) (data : List UInt8) : List StringMatch :=
  match Y.scan rules (bounded data) with
  | .ok results =>
      results.foldl (fun out r =>
        r.patterns.foldl (fun out p =>
          p.hits.foldl (fun out m => out ++ [stringMatch r p m]) out) out) []
  | .error _ => []

end Scan

end YaraWorker
