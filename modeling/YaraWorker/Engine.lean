/-
# The scan engine and the worker SDK

The two other packages the worker is built on, as parameters.

* `YaraX` : the `yara_x` crate.  Compiling is a pure function of the source,
  scanning a pure function of compiled rules and bytes; scanning does not change
  the rules.  `ReportsRanges` says that each hit is a range of the scanned slice.
* `Vgi` : the `vgi` SDK, with the arguments and parameters it passes to a
  function.
-/
import YaraWorker.Arrow

namespace YaraWorker

/-! ## yara-x -/

/-- One hit of a pattern: `range()` is `start..stop`, of type `Range<usize>`, and
`data()` are the matched bytes. -/
structure Match where
  start : ℕ
  stop : ℕ
  data : List UInt8
  /-- `start` is a 64-bit `usize`. -/
  start_lt : start < 2 ^ 64

/-- A pattern of a rule and its hits (`matches()`). -/
structure Pattern where
  identifier : String
  hits : List Match

/-- A matching rule; `tags` are the identifiers of its tags. -/
structure Rule where
  identifier : String
  nameSpace : String
  tags : List String
  patterns : List Pattern

/-- The engine. -/
structure YaraX where
  Compiler : Type
  Rules : Type
  CompileError : Type
  ScanError : Type
  /-- `Compiler::new`. -/
  new : Compiler
  addSource : Compiler → String → Except CompileError Compiler
  build : Compiler → Rules
  /-- The `Display` text of a compile error, the compiler's diagnostic. -/
  display : CompileError → String
  /-- `Scanner::new(rules).scan(data)`, with the matching rules of the results. -/
  scan : Rules → List UInt8 → Except ScanError (List Rule)

/-- Each hit the engine reports is a range of the slice it was given, and its
bytes are those of the range. -/
def YaraX.ReportsRanges (Y : YaraX) : Prop :=
  ∀ rules slice results, Y.scan rules slice = .ok results →
    ∀ r ∈ results, ∀ p ∈ r.patterns, ∀ m ∈ p.hits,
      m.start ≤ m.stop ∧ m.stop ≤ slice.length ∧ m.data = (slice.take m.stop).drop m.start

/-- The engine numbers its rules with a non-negative `i32`. -/
def YaraX.BoundsRules (Y : YaraX) : Prop :=
  ∀ rules slice results, Y.scan rules slice = .ok results → results.length ≤ i32Max

/-- An engine given by two tables: the diagnostics of the sources that do not
compile, and the outcome of each scan.  Compiled rules are their source. -/
def YaraX.ofTables (diagnostic : String → Option String)
    (outcome : String → List UInt8 → Except Unit (List Rule)) : YaraX where
  Compiler := String
  Rules := String
  CompileError := String
  ScanError := Unit
  new := ""
  addSource c source := (diagnostic source).elim (.ok (c ++ source)) .error
  build c := c
  display e := e
  scan := outcome

/-! ## The SDK -/

/-- The constant arguments of a table function, by position. -/
structure Arguments where
  constBytes : ℕ → Option (List UInt8)
  constStr : ℕ → Option String

/-- The part of `ProcessParams` the worker reads. -/
structure ProcessParams where
  outputSchema : Schema
  arguments : Arguments

/-- The parameters of a table function call with a BLOB constant and a VARCHAR
constant. -/
def ProcessParams.ofConstants (schema : Schema) (data : List UInt8) (src : String) :
    ProcessParams :=
  ⟨schema, ⟨fun i => if i = 0 then some data else none, fun i => if i = 1 then some src else none⟩⟩

/-- The parameters of a scalar call, which has no constant arguments. -/
def ProcessParams.ofSchema (schema : Schema) : ProcessParams :=
  ⟨schema, ⟨fun _ => none, fun _ => none⟩⟩

/-- The SDK: `BindResponse::result` publishes one nullable column of the given
type. -/
structure Vgi where
  result : DataType → Schema
  result_eq : ∀ ty, ∃ name, result ty = [⟨name, ty, true⟩]

/-- The published schema takes every column of its type. -/
theorem Vgi.tryNew_result (V : Vgi) {A : Arrow} {ty : DataType} {col : A.ArrayRef}
    (hty : A.dataType col = ty) :
    ∃ b, A.tryNew (V.result ty) [col] = .ok b ∧ A.numRows b = A.len col ∧ A.column b 0 = col := by
  obtain ⟨name, hname⟩ := V.result_eq ty
  have haccepts : A.Accepts (V.result ty) [col] (A.len col) := by
    rw [hname]
    exact ⟨List.cons_ne_nil _ _, .cons ⟨hty, rfl, fun h => by cases h⟩ .nil⟩
  obtain ⟨b, hb, hrows, hcolumn⟩ := A.tryNew_ok _ _ _ haccepts
  exact ⟨b, hb, hrows, hcolumn 0 col rfl⟩

/-- An SDK that names the result column `result`. -/
def Vgi.named : Vgi where
  result ty := [⟨"result", ty, true⟩]
  result_eq _ := ⟨"result", rfl⟩

end YaraWorker
