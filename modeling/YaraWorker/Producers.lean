/-
# What the two table functions share (`table/scan.rs`, `table/string_matches.rs`)

Both producers read the rules constant first, then compile, and look at the data
constant last; they differ in the scan they run on it.
-/
import YaraWorker.Scanning

open Utf8Bytes

namespace YaraWorker

/-- Read the `data` const argument as bytes: a BLOB or a VARCHAR constant.  Both files
have the same copy of this function. -/
def constDataBytes (params : ProcessParams) : Option (List UInt8) :=
  match params.arguments.constBytes 0 with
  | some b => some b
  | none => (params.arguments.constStr 0).map textBytes

/-- The data constant is a BLOB of these bytes, or a VARCHAR with this encoding. -/
def PassesData (args : Arguments) (bytes : List UInt8) : Prop :=
  args.constBytes 0 = some bytes
    ∨ (args.constBytes 0 = none ∧ ∃ s, args.constStr 0 = some s ∧ textBytes s = bytes)

theorem constDataBytes_of_passesData {params : ProcessParams} {bytes : List UInt8}
    (h : PassesData params.arguments bytes) : constDataBytes params = some bytes := by
  unfold constDataBytes
  rcases h with h | ⟨hnone, s, hs, rfl⟩
  · rw [h]
  · rw [hnone, hs]
    rfl

/-- The rows of a producer: none without a rules constant or without a data
constant. -/
def producerRows (Y : YaraX) {Row : Type} (scan : Y.Rules → List UInt8 → List Row)
    (params : ProcessParams) : Outcome (List Row) :=
  match params.arguments.constStr 1 with
  -- `rules` NULL/absent → no rows
  | none => .ok []
  | some src => do
      let rules ← compileOrError Y src
      match constDataBytes params with
      -- `data` NULL/absent → no rows (nothing to scan)
      | none => pure []
      | some bytes => pure (scan rules bytes)

section Rows

variable {Y : YaraX} {Row : Type} {scan : Y.Rules → List UInt8 → List Row}
  {params : ProcessParams}

theorem producerRows_of_no_rules (h : params.arguments.constStr 1 = none) :
    producerRows Y scan params = .ok [] := by
  rw [producerRows, h]

theorem producerRows_of_rules {src : String} (h : params.arguments.constStr 1 = some src) :
    producerRows Y scan params
      = (fun rules => ((constDataBytes params).map (scan rules)).getD []) <$> compileOrError Y src := by
  rw [producerRows, h]
  show ((compileOrError Y src).bind fun rules =>
    match constDataBytes params with
    | none => .ok []
    | some bytes => .ok (scan rules bytes)) = _
  cases compileOrError Y src with
  | error e => rfl
  | ok rules => cases constDataBytes params <;> rfl

end Rows

end YaraWorker
