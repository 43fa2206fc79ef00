/-
# NULL and unsupported operands on the two paths

The scalar loop reads data, then rules, then compiles; the producers read rules,
compile, and look at the data last, where a value of another type counts as none.
`SameOperands` holds one call of each on the same operands, and `pathsAgree_iff`
says for which operands they agree on NULL versus error.

* `scalar_iff` : the scalar reports an error exactly on data of another type;
* `scan_iff`, `strings_iff` : the producers report one exactly on rules that do not
  compile.
-/
import YaraWorker.BatchScan
import YaraWorker.TableScan
import YaraWorker.TableStringMatches

open Columnar FallibleRuns Pull Utf8Bytes

namespace YaraWorker

/-! ## Operands -/

/-- An operand of a call, as SQL has it. -/
inductive Operand
  | null
  | blob (bytes : List UInt8)
  | varchar (s : String)
  | other
  deriving DecidableEq

namespace Operand

/-- The rules operand, which is always VARCHAR. -/
def ofRules (rules : Option String) : Operand := (rules.map varchar).getD null

/-- Row 0 of a column holds the operand.  A NULL is marked in the validity buffer, and
a value of another type is not NULL in any sense. -/
def HeldBy (A : ArrowArrays) (col : A.ArrayRef) : Operand → Prop
  | null => A.isNull col 0 = true
  | blob bytes => A.isNull col 0 = false
      ∧ (A.dataType col = .Binary ∨ A.dataType col = .LargeBinary) ∧ A.binaryValue col 0 = bytes
  | varchar s => A.isNull col 0 = false ∧ (A.dataType col).IsText ∧ A.stringValue col 0 = s
  | other => A.isLogicalNull col 0 = false ∧ ¬ (A.dataType col).IsBytes

/-- The SDK passes the operand as a constant: `const_bytes` is a BLOB, `const_str` a
VARCHAR. -/
def PassedAt (args : Arguments) (pos : ℕ) : Operand → Prop
  | blob bytes => args.constBytes pos = some bytes ∧ args.constStr pos = none
  | varchar s => args.constBytes pos = none ∧ args.constStr pos = some s
  | null => args.constBytes pos = none ∧ args.constStr pos = none
  | other => args.constBytes pos = none ∧ args.constStr pos = none

end Operand

/-- A one-row batch and constant arguments with the same operands. -/
structure SameOperands (A : Arrow) where
  data : Operand
  rules : Option String
  batch : A.RecordBatch
  arguments : Arguments
  numRows_batch : A.numRows batch = 1
  data_held : data.HeldBy A.toArrowArrays (A.column batch 0)
  rules_held : (Operand.ofRules rules).HeldBy A.toArrowArrays (A.column batch 1)
  data_passed : data.PassedAt arguments 0
  rules_passed : (Operand.ofRules rules).PassedAt arguments 1

namespace SameOperands

variable {A : Arrow} (Y : YaraX) (V : Vgi) (kind : Kind) (c : SameOperands A)

/-- The rules are a source that does not compile. -/
def BadRules : Prop := ∃ src, c.rules = some src ∧ rulesCompile Y src = false

/-! ## The calls -/

def scalarCall : Outcome A.RecordBatch :=
  processKind A Y kind ⟨onBind V kind, c.arguments⟩ c.batch

def ScalarErrors : Prop := ∃ e, c.scalarCall Y V kind = .error (.error e)

def ScalarNull : Prop :=
  ∃ b, c.scalarCall Y V kind = .ok b ∧ kind.decode A.toArrowArrays (A.column b 0) = [.null]

def ScanErrors : Prop :=
  ∃ e, YaraScan.producer Y ⟨YaraScan.outputSchema, c.arguments⟩ = .error (.error e)

def ScanEmpty : Prop :=
  ∃ p batches, YaraScan.producer Y ⟨YaraScan.outputSchema, c.arguments⟩ = .ok p
    ∧ Drains (ScanProducer.nextBatch A) p batches ∧ batches.flatMap (decodeScan A) = []

def StringErrors : Prop :=
  ∃ e, YaraStringMatches.producer Y ⟨YaraStringMatches.outputSchema, c.arguments⟩
    = .error (.error e)

def StringEmpty : Prop :=
  ∃ p batches, YaraStringMatches.producer Y ⟨YaraStringMatches.outputSchema, c.arguments⟩ = .ok p
    ∧ Drains (StringMatchProducer.nextBatch A) p batches
    ∧ batches.flatMap (decodeStringMatches A) = []

/-- The paths agree on NULL versus error; a NULL operand is never an error, and data of
another type is always one. -/
structure PathsAgree : Prop where
  scan_errors : c.ScanErrors Y ↔ c.ScalarErrors Y V kind
  string_errors : c.StringErrors Y ↔ c.ScalarErrors Y V kind
  scan_empty : c.ScanEmpty Y ↔ c.ScalarNull Y V kind
  string_empty : c.StringEmpty Y ↔ c.ScalarNull Y V kind
  null_operand : c.data = .null ∨ c.rules = none →
    ¬ c.ScanErrors Y ∧ ¬ c.StringErrors Y ∧ ¬ c.ScalarErrors Y V kind
  other_data : c.data = .other → c.ScanErrors Y ∧ c.StringErrors Y ∧ c.ScalarErrors Y V kind

/-- Off the happy path: an operand is NULL, or the data has another type. -/
def OffHappyPath : Prop := c.data = .null ∨ c.data = .other ∨ c.rules = none

variable {Y V kind c}

/-! ## The scalar path -/

theorem textStr_of_heldBy {col : A.ArrayRef} {rules : Option String}
    (h : (Operand.ofRules rules).HeldBy A.toArrowArrays col) : textStr A col 0 = .ok rules := by
  rcases rules with _ | src
  · exact textStr_of_isNull h
  · obtain ⟨hnull, hty, hvalue⟩ := h
    rw [textStr_of_isText hnull hty, hvalue]

/-- Data of another type is an error, before the rules are looked at. -/
theorem operands_of_other (h : c.data = .other) :
    ∃ e, operands A (A.column c.batch 0) (A.column c.batch 1) 0 = .error (.error e) := by
  have hheld := c.data_held
  rw [h] at hheld
  obtain ⟨hvalid, hty⟩ := hheld
  have hnull : A.isNull (A.column c.batch 0) 0 = false := by
    by_contra hnull
    rw [Bool.not_eq_false] at hnull
    rw [A.isLogicalNull_of_isNull _ _ hnull] at hvalid
    cases hvalid
  unfold operands
  rw [blobBytes_of_not_isBytes hnull hty]
  exact ⟨_, rfl⟩

/-- Data that is a BLOB or a VARCHAR can be read. -/
theorem exists_blobBytes_eq_ok (hnull : c.data ≠ .null) (hother : c.data ≠ .other) :
    ∃ bytes, blobBytes A (A.column c.batch 0) 0 = .ok (some bytes) := by
  have hheld := c.data_held
  rcases hdata : c.data with _ | bytes | s | _
  · exact absurd hdata hnull
  · rw [hdata] at hheld
    obtain ⟨hvalid, hty, _⟩ := hheld
    refine ⟨_, blobBytes_of_isBytes hvalid ?_⟩
    rcases hty with hty | hty
    · exact Or.inl hty
    · exact Or.inr (Or.inl hty)
  · rw [hdata] at hheld
    obtain ⟨hvalid, hty, _⟩ := hheld
    exact ⟨_, blobBytes_of_isBytes hvalid hty.isBytes⟩
  · exact absurd hdata hother

/-- Off the happy path, data of a supported type or NULL means a NULL operand. -/
theorem operands_of_not_other (hoff : c.OffHappyPath) (h : c.data ≠ .other) :
    operands A (A.column c.batch 0) (A.column c.batch 1) 0 = .ok none := by
  have hsrc := textStr_of_heldBy c.rules_held
  by_cases hnull : c.data = .null
  · have hheld := c.data_held
    rw [hnull] at hheld
    exact operands_of_none (blobBytes_of_isNull hheld) hsrc (Or.inl rfl)
  · have hrules : c.rules = none := by
      rcases hoff with hoff | hoff | hoff
      · exact absurd hoff hnull
      · exact absurd hoff h
      · exact hoff
    obtain ⟨bytes, hbytes⟩ := exists_blobBytes_eq_ok hnull h
    exact operands_of_none hbytes hsrc (Or.inr hrules)

/-- The batch has one row, so the call collects one cell. -/
theorem scalarCall_agree (Y : YaraX) (V : Vgi) (kind : Kind) (c : SameOperands A) :
    Agree (IsOutput A kind) (c.scalarCall Y V kind) (fill FitsCells .panic
      (referenceRow A Y kind (A.column c.batch 0) (A.column c.batch 1)) [0]) := by
  have hagree : Agree (IsOutput A kind) (c.scalarCall Y V kind) _ :=
    processKind_agree V kind rfl c.batch
  rwa [c.numRows_batch] at hagree

theorem scalarCall_of_other (h : c.data = .other) : c.ScalarErrors Y V kind := by
  obtain ⟨e, he⟩ := operands_of_other h
  have hfill : fill FitsCells .panic
      (referenceRow A Y kind (A.column c.batch 0) (A.column c.batch 1)) [0] = .error (.error e) := by
    rw [fill, List.foldlM_cons, fillStep_error (referenceRow_of_error he)]
    rfl
  have hagree := scalarCall_agree Y V kind c
  rw [hfill] at hagree
  rcases hcall : c.scalarCall Y V kind with e' | b
  · rw [hcall] at hagree
    have hsame := hagree.eq_of_error
    cases hsame
    exact ⟨e, hcall⟩
  · rw [hcall] at hagree
    obtain ⟨_, hok, _⟩ := hagree.exists_of_ok
    cases hok

theorem scalarCall_of_not_other (hoff : c.OffHappyPath) (h : c.data ≠ .other) :
    c.ScalarNull Y V kind := by
  have hfill : fill FitsCells .panic
      (referenceRow A Y kind (A.column c.batch 0) (A.column c.batch 1)) [0] = .ok [.null] := by
    rw [fill, List.foldlM_cons, fillStep_ok (referenceRow_of_null (operands_of_not_other hoff h))]
    rfl
  have hagree := scalarCall_agree Y V kind c
  rw [hfill] at hagree
  obtain ⟨b, hb⟩ := hagree.exists_ok_iff.mpr ⟨_, rfl⟩
  rw [hb] at hagree
  obtain ⟨_, hcells, _, _, hdecode⟩ := hagree.exists_of_ok
  cases hcells
  exact ⟨b, hb, hdecode⟩

/-- Two outcomes that exclude each other, one where `P` holds and one elsewhere. -/
theorem iff_and_iff_not {P E N : Prop} (herror : P → E) (hnull : ¬ P → N) (hexclude : E → ¬ N) :
    (E ↔ P) ∧ (N ↔ ¬ P) := by
  refine ⟨⟨fun h => ?_, herror⟩, ⟨fun h hP => hexclude (herror hP) h, hnull⟩⟩
  by_contra hP
  exact hexclude h (hnull hP)

/-- Off the happy path the scalar path reports an error on data of another type, and
returns a NULL on any other. -/
theorem scalar_iff (hoff : c.OffHappyPath) :
    (c.ScalarErrors Y V kind ↔ c.data = .other) ∧ (c.ScalarNull Y V kind ↔ c.data ≠ .other) := by
  refine iff_and_iff_not scalarCall_of_other (scalarCall_of_not_other hoff) ?_
  rintro ⟨e, he⟩ ⟨b, hb, _⟩
  rw [he] at hb
  cases hb

/-! ## The producers -/

/-- Rules that do not compile are an error, before the data is looked at. -/
theorem producerRows_of_badRules (h : c.BadRules Y) : ∃ e, ∀ (schema : Schema) {Row : Type}
    (scan : Y.Rules → List UInt8 → List Row),
    producerRows Y scan ⟨schema, c.arguments⟩ = .error (.error e) := by
  obtain ⟨src, hsrc, hbad⟩ := h
  have hpassed := c.rules_passed
  rw [hsrc] at hpassed
  obtain ⟨_, hconst⟩ := hpassed
  rcases hrules : compileOrError Y src with stop | rules
  · obtain ⟨e, rfl⟩ := compileOrError_eq_error Y hrules
    refine ⟨e, fun schema Row scan => ?_⟩
    rw [producerRows_of_rules hconst, hrules]
    rfl
  · rw [(rulesCompile_eq_true_iff Y src).mpr ⟨rules, hrules⟩] at hbad
    cases hbad

/-- Off the happy path, there is no data constant or no rules constant. -/
theorem producerRows_of_not_badRules (hoff : c.OffHappyPath) (h : ¬ c.BadRules Y)
    (schema : Schema) {Row : Type} (scan : Y.Rules → List UInt8 → List Row) :
    producerRows Y scan ⟨schema, c.arguments⟩ = .ok [] := by
  rcases hsrc : c.rules with _ | src
  · have hpassed := c.rules_passed
    rw [hsrc] at hpassed
    exact producerRows_of_no_rules hpassed.2
  · have hpassed := c.rules_passed
    rw [hsrc] at hpassed
    -- the rules compile, and the data is NULL or of another type: no constant
    have hcompile : rulesCompile Y src = true := by
      by_contra hbad
      exact h ⟨src, hsrc, by rwa [Bool.not_eq_true] at hbad⟩
    obtain ⟨rules, hrules⟩ := (rulesCompile_eq_true_iff Y src).mp hcompile
    have hdata : constDataBytes ⟨schema, c.arguments⟩ = none := by
      have hnone : c.arguments.constBytes 0 = none ∧ c.arguments.constStr 0 = none := by
        have hpassed := c.data_passed
        rcases hoff with hoff | hoff | hoff
        · rwa [hoff] at hpassed
        · rwa [hoff] at hpassed
        · rw [hsrc] at hoff
          cases hoff
      unfold constDataBytes
      rw [hnone.1, hnone.2]
      rfl
    rw [producerRows_of_rules hpassed.2, hrules, hdata]
    rfl

theorem scan_of_badRules (h : c.BadRules Y) : c.ScanErrors Y := by
  obtain ⟨e, he⟩ := producerRows_of_badRules h
  refine ⟨e, ?_⟩
  rw [YaraScan.producer, he]
  rfl

theorem strings_of_badRules (h : c.BadRules Y) : c.StringErrors Y := by
  obtain ⟨e, he⟩ := producerRows_of_badRules h
  refine ⟨e, ?_⟩
  rw [YaraStringMatches.producer, he]
  rfl

theorem scan_of_not_badRules (hoff : c.OffHappyPath) (h : ¬ c.BadRules Y) : c.ScanEmpty Y := by
  obtain ⟨b, _, hdrains, _, _, hdecode⟩ := ScanProducer.nextBatch_once (A := A)
    (p := ⟨YaraScan.outputSchema, [], false⟩) rfl rfl (by decide)
  refine ⟨_, [b], ?_, hdrains, ?_⟩
  · rw [YaraScan.producer, producerRows_of_not_badRules hoff h]
    rfl
  · rw [List.flatMap_singleton, hdecode]
    rfl

theorem strings_of_not_badRules (hoff : c.OffHappyPath) (h : ¬ c.BadRules Y) :
    c.StringEmpty Y := by
  obtain ⟨b, _, hdrains, _, _, hdecode⟩ := StringMatchProducer.nextBatch_once (A := A)
    (p := ⟨YaraStringMatches.outputSchema, [], false⟩) rfl rfl (by decide)
  refine ⟨_, [b], ?_, hdrains, ?_⟩
  · rw [YaraStringMatches.producer, producerRows_of_not_badRules hoff h]
    rfl
  · rw [List.flatMap_singleton, hdecode]
    rfl

/-- Off the happy path a producer reports an error on rules that do not compile, and
has no rows on any other. -/
theorem scan_iff (hoff : c.OffHappyPath) :
    (c.ScanErrors Y ↔ c.BadRules Y) ∧ (c.ScanEmpty Y ↔ ¬ c.BadRules Y) := by
  refine iff_and_iff_not scan_of_badRules (scan_of_not_badRules hoff) ?_
  rintro ⟨e, he⟩ ⟨p, _, hp, _⟩
  rw [he] at hp
  cases hp

theorem strings_iff (hoff : c.OffHappyPath) :
    (c.StringErrors Y ↔ c.BadRules Y) ∧ (c.StringEmpty Y ↔ ¬ c.BadRules Y) := by
  refine iff_and_iff_not strings_of_badRules (strings_of_not_badRules hoff) ?_
  rintro ⟨e, he⟩ ⟨p, _, hp, _⟩
  rw [he] at hp
  cases hp

/-! ## When the paths agree -/

/-- **The paths agree** off the happy path exactly when NULL data comes with rules that
are NULL or compile, and data of another type with rules that do not compile. -/
theorem pathsAgree_iff (Y : YaraX) (V : Vgi) (kind : Kind) (c : SameOperands A)
    (hoff : c.OffHappyPath) :
    c.PathsAgree Y V kind
      ↔ (c.data = .null → ¬ c.BadRules Y) ∧ (c.data = .other → c.BadRules Y) := by
  constructor
  · intro h
    refine ⟨fun hdata hbad => ?_, fun hdata => ?_⟩
    · exact (h.null_operand (Or.inl hdata)).1 (scan_of_badRules hbad)
    · exact (scan_iff hoff).1.mp (h.other_data hdata).1
  · rintro ⟨hnull, hother⟩
    -- the producers report an error on the operands the scalar reports one on
    have herrors : c.BadRules Y ↔ c.data = .other := by
      refine ⟨fun hbad => ?_, hother⟩
      rcases hoff with hoff | hoff | hoff
      · exact absurd hbad (hnull hoff)
      · exact hoff
      · obtain ⟨src, hsrc, _⟩ := hbad
        rw [hoff] at hsrc
        cases hsrc
    obtain ⟨hscalarErrors, hscalarNull⟩ := scalar_iff (Y := Y) (V := V) hoff
    obtain ⟨hscanErrors, hscanEmpty⟩ := scan_iff (Y := Y) hoff
    obtain ⟨hstringErrors, hstringEmpty⟩ := strings_iff (Y := Y) hoff
    exact {
      scan_errors := by rw [hscanErrors, hscalarErrors, herrors]
      string_errors := by rw [hstringErrors, hscalarErrors, herrors]
      scan_empty := by rw [hscanEmpty, hscalarNull, herrors]
      string_empty := by rw [hstringEmpty, hscalarNull, herrors]
      null_operand := by
        intro h
        have hdata : c.data ≠ .other := by
          rintro hdata
          obtain ⟨src, hsrc, _⟩ := hother hdata
          rcases h with h | h
          · rw [h] at hdata
            cases hdata
          · rw [h] at hsrc
            cases hsrc
        rw [hscanErrors, hstringErrors, hscalarErrors, herrors]
        exact ⟨hdata, hdata, hdata⟩
      other_data := by
        intro h
        rw [hscanErrors, hstringErrors, hscalarErrors, herrors]
        exact ⟨h, h, h⟩ }

/-! ## Operands on which they do and do not agree -/

/-- A call with data that is no constant and a source. -/
def withSource (src : String) (data : Operand) (col : Column)
    (hdata : data = .null ∨ data = .other) (hheld : data.HeldBy columnar.toArrowArrays col) :
    SameOperands columnar where
  data := data
  rules := some src
  batch := ⟨[], [col, textColumn .Utf8 [some src]], 1⟩
  arguments := ⟨fun _ => none, fun i => if i = 1 then some src else none⟩
  numRows_batch := rfl
  data_held := hheld
  rules_held := by
    have hnull := isNull_textColumn .Utf8 [some src] (i := 0) Nat.one_pos
    have hvalue := stringValue_textColumn .Utf8 [some src] (i := 0) Nat.one_pos
    exact ⟨hnull, Or.inl rfl, hvalue⟩
  data_passed := by
    rcases hdata with rfl | rfl
    · exact ⟨rfl, rfl⟩
    · exact ⟨rfl, rfl⟩
  rules_passed := ⟨rfl, rfl⟩

/-- `NULL :: BLOB`. -/
def nullData (src : String) : SameOperands columnar :=
  withSource src .null (blobColumn .Binary [none]) (Or.inl rfl) rfl

/-- `7 :: INTEGER`. -/
def intData (src : String) : SameOperands columnar :=
  withSource src .other (.int32 none [7]) (Or.inr rfl) ⟨rfl, by rintro (h | h | h | h) <;> cases h⟩

/-- An engine that no source satisfies. -/
def noSource : YaraX := .ofTables (fun _ => some "syntax error") (fun _ _ => .ok [])

theorem badRules_noSource {c : SameOperands columnar} {src : String} (h : c.rules = some src) :
    c.BadRules noSource := by
  refine ⟨src, h, ?_⟩
  unfold rulesCompile noSource
  rw [compileRules_ofTables]
  rfl

theorem not_badRules_echo (c : SameOperands columnar) : ¬ c.BadRules echo := by
  rintro ⟨src, _, hbad⟩
  rw [rulesCompile, compileRules_echo] at hbad
  cases hbad

theorem pathsAgree_iff_nullData : (nullData "r").PathsAgree echo .named .Matches :=
  (pathsAgree_iff echo .named .Matches (nullData "r") (Or.inl rfl)).mpr
    ⟨fun _ => not_badRules_echo _, fun h => by cases h⟩

/-- **Where they disagree.**  On NULL data with rules that do not compile, the scalar
returns NULL and the producers report an error; on an INTEGER with rules that compile,
the scalar reports an error and the producers return no rows. -/
theorem not_pathsAgree :
    ((nullData "r").ScalarNull noSource .named .Matches ∧ (nullData "r").ScanErrors noSource
      ∧ (nullData "r").StringErrors noSource
      ∧ ¬ (nullData "r").PathsAgree noSource .named .Matches)
    ∧ ((intData "r").ScalarErrors echo .named .Matches ∧ (intData "r").ScanEmpty echo
      ∧ (intData "r").StringEmpty echo ∧ ¬ (intData "r").PathsAgree echo .named .Matches) := by
  have hnull : (nullData "r").OffHappyPath := Or.inl rfl
  have hint : (intData "r").OffHappyPath := Or.inr (Or.inl rfl)
  constructor
  · have hbad : (nullData "r").BadRules noSource := badRules_noSource rfl
    refine ⟨scalarCall_of_not_other hnull (fun h => by cases h), scan_of_badRules hbad,
      strings_of_badRules hbad, fun h => ?_⟩
    exact (h.null_operand (Or.inl rfl)).1 (scan_of_badRules hbad)
  · have hgood := not_badRules_echo (intData "r")
    refine ⟨scalarCall_of_other rfl, scan_of_not_badRules hint hgood,
      strings_of_not_badRules hint hgood, fun h => ?_⟩
    exact hgood ((scan_iff hint).1.mp (h.other_data rfl).1)

end SameOperands

end YaraWorker
