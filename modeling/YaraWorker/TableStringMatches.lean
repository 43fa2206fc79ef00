/-
# The hit table function (`table/string_matches.rs`)

`yara_string_matches` scans once, when its producer is made, and encodes all hits
into one batch at the first call of `nextBatch`.

* `StringMatchColumns.push_agree` : one row goes onto the four column builders, or
  a string builder panics;
* `StringMatchProducer.fillColumns_agree` : exactly when the loop over the rows ends well;
* `StringMatchProducer.buildBatch_spec` : the batch decodes to the rows;
* `StringMatchProducer.nextBatch_once` : it is emitted once.
-/
import Mathlib.Data.Int.Notation
import YaraWorker.FallibleRuns
import YaraWorker.Producers
import YaraWorker.Pull

open FallibleRuns Pull

namespace YaraWorker

/-! ## The producer -/

namespace YaraStringMatches

def outputSchema : Schema :=
  [⟨"rule", .Utf8, false⟩, ⟨"identifier", .Utf8, false⟩, ⟨"offset", .Int64, false⟩,
    ⟨"matched", .Utf8, true⟩]

end YaraStringMatches

structure StringMatchProducer where
  schema : Schema
  rows : List StringMatch
  done : Bool

def YaraStringMatches.producer (Y : YaraX) (params : ProcessParams) :
    Outcome StringMatchProducer := do
  let rows ← producerRows Y (scanStrings Y) params
  pure { schema := params.outputSchema, rows := rows, done := false }

/-- With both constants the producer stops where compiling does. -/
theorem YaraStringMatches.producer_of_constants {Y : YaraX} {params : ProcessParams} {src : String}
    {data : List UInt8} (hsrc : params.arguments.constStr 1 = some src)
    (hdata : constDataBytes params = some data) :
    YaraStringMatches.producer Y params
      = (fun rules => ⟨params.outputSchema, scanStrings Y rules data, false⟩)
          <$> compileOrError Y src := by
  rw [producer, producerRows_of_rules hsrc, hdata]
  cases compileOrError Y src <;> rfl

/-- The four column builders of a batch. -/
structure StringMatchColumns (A : Arrow) where
  rule : A.stringBuilder.State
  identifier : A.stringBuilder.State
  offset : A.int64Builder.State
  matched : A.stringBuilder.State

section Batch

variable (A : Arrow)

def StringMatchColumns.new : StringMatchColumns A :=
  ⟨A.stringBuilder.new, A.stringBuilder.new, A.int64Builder.new, A.stringBuilder.new⟩

variable {A}

/-- The body of the loop over the rows; the offset is cast with `as i64`. -/
def StringMatchColumns.push (cols : StringMatchColumns A) (m : StringMatch) :
    Outcome (StringMatchColumns A) := do
  let rule ← A.stringBuilder.appendValue cols.rule m.rule
  let identifier ← A.stringBuilder.appendValue cols.identifier m.identifier
  let offset ← A.int64Builder.appendValue cols.offset m.offset.toInt64
  let matched ← A.stringBuilder.appendValue cols.matched m.matched
  pure { rule := rule, identifier := identifier, offset := offset, matched := matched }

def StringMatchColumns.finish (cols : StringMatchColumns A) : List A.ArrayRef :=
  [A.stringBuilder.finish cols.rule, A.stringBuilder.finish cols.identifier,
    A.int64Builder.finish cols.offset, A.stringBuilder.finish cols.matched]

variable (A)

/-- The loop of `next_batch`, up to `RecordBatch::try_new`. -/
def StringMatchProducer.fillColumns (p : StringMatchProducer) : Outcome (StringMatchColumns A) :=
  p.rows.foldlM StringMatchColumns.push (StringMatchColumns.new A)

/-- The rest of `next_batch`, once the producer is marked as done. -/
def StringMatchProducer.buildBatch (p : StringMatchProducer) : Outcome A.RecordBatch := do
  let cols ← p.fillColumns A
  (A.tryNew p.schema cols.finish).mapError (fun e => .error (.runtimeError e))

def StringMatchProducer.nextBatch (p : StringMatchProducer) :
    Outcome (Option A.RecordBatch) × StringMatchProducer :=
  if p.done then (.ok none, p)
  else
    let p := { p with done := true }
    (some <$> p.buildBatch A, p)

/-! ## Decoding a batch -/

/-- One output row; the offset is a BIGINT. -/
structure StringMatchRow where
  rule : String
  identifier : String
  offset : ℤ
  matched : String
  deriving DecidableEq

/-- What SQL sees of a row. -/
def StringMatch.toRow (m : StringMatch) : StringMatchRow :=
  ⟨m.rule, m.identifier, m.offset.toInt64.toInt, m.matched⟩

/-- Row `i` of a batch, or nothing if one of its fields is NULL. -/
def decodeStringMatchRow (b : A.RecordBatch) (i : ℕ) : Option StringMatchRow := do
  let rule ← (A.cells A.stringValue (A.column b 0))[i]?.join
  let identifier ← (A.cells A.stringValue (A.column b 1))[i]?.join
  let offset ← (A.cells A.int64Value (A.column b 2))[i]?.join
  let matched ← (A.cells A.stringValue (A.column b 3))[i]?.join
  pure ⟨rule, identifier, offset.toInt, matched⟩

/-- All rows of a batch. -/
def decodeStringMatches (b : A.RecordBatch) : List (Option StringMatchRow) :=
  (List.range (A.numRows b)).map (decodeStringMatchRow A b)

end Batch

/-- An offset below `2^63` survives the cast. -/
theorem StringMatch.toRow_offset {m : StringMatch} (h : m.offset.toNat < 2 ^ 63) :
    m.toRow.offset = m.offset.toNat := by
  show m.offset.toBitVec.toInt = _
  rw [BitVec.toInt_eq_toNat_of_lt]
  · rfl
  · show 2 * m.offset.toNat < 2 ^ 64
    omega

section Spec

variable {A : Arrow}

/-- Four columns that hold the fields of the rows decode to the rows. -/
theorem decodeStringMatches_eq {b : A.RecordBatch} {rows : List StringMatch}
    (hrows : A.numRows b = rows.length)
    (hrule : A.cells A.stringValue (A.column b 0) = (rows.map StringMatch.rule).map some)
    (hidentifier :
      A.cells A.stringValue (A.column b 1) = (rows.map StringMatch.identifier).map some)
    (hoffset :
      A.cells A.int64Value (A.column b 2) = (rows.map (fun m => m.offset.toInt64)).map some)
    (hmatched : A.cells A.stringValue (A.column b 3) = (rows.map StringMatch.matched).map some) :
    decodeStringMatches A b = rows.map (fun m => some m.toRow) := by
  refine List.ext_getElem (by simp [decodeStringMatches, hrows]) (fun i h₁ h₂ => ?_)
  have hi : i < rows.length := by simpa using h₂
  have hrow : decodeStringMatchRow A b i = some rows[i].toRow := by
    unfold decodeStringMatchRow
    rw [hrule, hidentifier, hoffset, hmatched]
    simp only [List.getElem?_map, List.getElem?_eq_getElem hi, Option.map_some, Option.join_some]
    rfl
  simpa [decodeStringMatches] using hrow

/-! ## The loop -/

/-- The text of the rows fits the three string columns. -/
def FitsStrings (rows : List StringMatch) : Prop :=
  textLen (rows.map StringMatch.rule) ≤ i32Max
    ∧ textLen (rows.map StringMatch.identifier) ≤ i32Max
    ∧ textLen (rows.map StringMatch.matched) ≤ i32Max

instance : DecidablePred FitsStrings := fun _ => inferInstanceAs (Decidable (_ ∧ _))

theorem fitsStrings_of_append (xs ys : List StringMatch) (h : FitsStrings (xs ++ ys)) :
    FitsStrings xs := by
  unfold FitsStrings at h ⊢
  simp only [List.map_append, textLen_append] at h
  omega

/-- The builders hold the fields of the rows. -/
structure StringMatchColumns.Holds (cols : StringMatchColumns A) (rows : List StringMatch) :
    Prop where
  rule : A.stringBuilder.contents cols.rule = (rows.map StringMatch.rule).map some
  identifier : A.stringBuilder.contents cols.identifier = (rows.map StringMatch.identifier).map some
  offset : A.int64Builder.contents cols.offset = (rows.map (fun m => m.offset.toInt64)).map some
  matched : A.stringBuilder.contents cols.matched = (rows.map StringMatch.matched).map some

theorem StringMatchColumns.holds_new : (StringMatchColumns.new A).Holds [] where
  rule := A.string_lawful.contents_new
  identifier := A.string_lawful.contents_new
  offset := A.int64_lawful.contents_new
  matched := A.string_lawful.contents_new

/-- **One row** goes onto the four builders if the text still fits; otherwise a string
builder panics. -/
theorem StringMatchColumns.push_agree {cols : StringMatchColumns A} {rows : List StringMatch}
    (h : cols.Holds rows) (m : StringMatch) :
    Agree Holds (cols.push m)
      (fillStep FitsStrings .panic (fun m => .ok m) rows m) := by
  have hconcat : ∀ {α : Type} (f : StringMatch → α), (rows ++ [m]).map f = rows.map f ++ [f m] := by
    intro α f
    rw [List.map_append, List.map_singleton]
  rw [fillStep_ok rfl]
  unfold push FitsStrings
  simp only [hconcat]
  -- the builders are filled in order, and the first one that is full stops the row
  by_cases hrule : textLen (rows.map StringMatch.rule ++ [m.rule]) ≤ i32Max
  · obtain ⟨rule, hrule', hruleHolds⟩ := Arrow.string_appendValue_ok h.rule hrule
    rw [hrule']
    by_cases hidentifier : textLen (rows.map StringMatch.identifier ++ [m.identifier]) ≤ i32Max
    · obtain ⟨identifier, hidentifier', hidentifierHolds⟩ :=
        Arrow.string_appendValue_ok h.identifier hidentifier
      obtain ⟨offset, hoffset', hoffsetHolds⟩ :=
        A.int64_lawful.appendValue_ok cols.offset m.offset.toInt64 trivial
      rw [hidentifier', hoffset']
      by_cases hmatched : textLen (rows.map StringMatch.matched ++ [m.matched]) ≤ i32Max
      · obtain ⟨matched, hmatched', hmatchedHolds⟩ :=
          Arrow.string_appendValue_ok h.matched hmatched
        rw [hmatched', if_pos ⟨hrule, hidentifier, hmatched⟩]
        refine Agree.done ⟨?_, ?_, ?_, ?_⟩
        · rw [hruleHolds, hconcat]
        · rw [hidentifierHolds, hconcat]
        · rw [hoffsetHolds, h.offset, hconcat, List.map_append, List.map_singleton]
        · rw [hmatchedHolds, hconcat]
      · rw [Arrow.string_appendValue_panic h.matched hmatched,
          if_neg (fun hfits => hmatched hfits.2.2)]
        exact Agree.stopped _
    · rw [Arrow.string_appendValue_panic h.identifier hidentifier,
        if_neg (fun hfits => hidentifier hfits.2.1)]
      exact Agree.stopped _
  · rw [Arrow.string_appendValue_panic h.rule hrule, if_neg (fun hfits => hrule hfits.1)]
    exact Agree.stopped _

/-- **The loop** ends well exactly when the text of all rows fits. -/
theorem StringMatchProducer.fillColumns_agree (p : StringMatchProducer) :
    Agree StringMatchColumns.Holds (p.fillColumns A)
      (if FitsStrings p.rows then .ok p.rows else .error .panic) := by
  rw [← fill_ok fitsStrings_of_append (by decide) p.rows]
  exact foldlM_agree p.rows (fun _ _ m _ h => StringMatchColumns.push_agree h m)
    StringMatchColumns.holds_new

/-! ## The batch -/

/-- The published schema takes the finished columns. -/
theorem StringMatchColumns.Holds.accepts_finish {cols : StringMatchColumns A}
    {rows : List StringMatch} (h : cols.Holds rows) :
    A.Accepts YaraStringMatches.outputSchema cols.finish rows.length := by
  have hoffset := h.offset ▸ A.int64_lawful.holds_finish cols.offset
  exact ⟨List.cons_ne_nil _ _,
    .cons (A.column_of_cells (Arrow.string_finish h.rule) (List.length_map _))
      (.cons (A.column_of_cells (Arrow.string_finish h.identifier) (List.length_map _))
        (.cons (A.column_of_cells hoffset (List.length_map _))
          (.cons (A.column_of_cells (Arrow.string_finish h.matched) (List.length_map _)) .nil)))⟩

/-- **The batch decodes to the rows**, in the published schema. -/
theorem StringMatchProducer.buildBatch_spec {p : StringMatchProducer}
    (hschema : p.schema = YaraStringMatches.outputSchema) (hfits : FitsStrings p.rows) :
    ∃ b, p.buildBatch A = .ok b ∧ A.numRows b = p.rows.length
      ∧ (∀ i < 4, A.len (A.column b i) = p.rows.length)
      ∧ decodeStringMatches A b = p.rows.map (fun m => some m.toRow) := by
  have hagree := p.fillColumns_agree (A := A)
  rw [if_pos hfits] at hagree
  obtain ⟨cols, hcols⟩ := hagree.exists_ok_iff.mpr ⟨_, rfl⟩
  rw [hcols] at hagree
  obtain ⟨_, hrows', hholds⟩ := hagree.exists_of_ok
  cases hrows'
  obtain ⟨b, hb, hrows, hcolumn, hlen⟩ := A.tryNew_of_accepts hholds.accepts_finish
  refine ⟨b, ?_, hrows, hlen, ?_⟩
  · unfold buildBatch
    rw [hcols, hschema]
    show (A.tryNew YaraStringMatches.outputSchema cols.finish).mapError _ = _
    rw [hb]
    rfl
  · refine decodeStringMatches_eq hrows ?_ ?_ ?_ ?_
    · rw [hcolumn 0 _ rfl]
      exact (Arrow.string_finish hholds.rule).2
    · rw [hcolumn 1 _ rfl]
      exact (Arrow.string_finish hholds.identifier).2
    · rw [hcolumn 2 _ rfl]
      exact (hholds.offset ▸ A.int64_lawful.holds_finish cols.offset).2
    · rw [hcolumn 3 _ rfl]
      exact (Arrow.string_finish hholds.matched).2

/-- A batch whose text does not fit is never built: a builder panics. -/
theorem StringMatchProducer.buildBatch_panic {p : StringMatchProducer}
    (hfull : ¬ FitsStrings p.rows) : p.buildBatch A = .error .panic := by
  have hagree := p.fillColumns_agree (A := A)
  rw [if_neg hfull] at hagree
  unfold buildBatch
  generalize p.fillColumns A = x at hagree ⊢
  cases hagree
  rfl

/-! ## Calls of `next_batch` -/

theorem StringMatchProducer.nextBatch_of_done {p : StringMatchProducer} (h : p.done = true) :
    p.nextBatch A = (.ok none, p) := by
  rw [nextBatch, if_pos h]

theorem StringMatchProducer.nextBatch_fresh {p : StringMatchProducer} (h : p.done = false) :
    p.nextBatch A = (some <$> p.buildBatch A, { p with done := true }) := by
  rw [nextBatch, if_neg (by rw [h]; exact Bool.false_ne_true)]
  rfl

/-- **A fresh producer emits its rows once.** -/
theorem StringMatchProducer.nextBatch_once {p : StringMatchProducer}
    (hschema : p.schema = YaraStringMatches.outputSchema) (hdone : p.done = false)
    (hfits : FitsStrings p.rows) :
    ∃ b, (∀ n, calls (nextBatch A) (n + 1) p = .ok (some b) :: List.replicate n (.ok none))
      ∧ Drains (nextBatch A) p [b] ∧ A.numRows b = p.rows.length
      ∧ (∀ i < 4, A.len (A.column b i) = p.rows.length)
      ∧ decodeStringMatches A b = p.rows.map (fun m => some m.toRow) := by
  obtain ⟨b, hb, hspec⟩ := p.buildBatch_spec (A := A) hschema hfits
  have hfirst : p.nextBatch A = (.ok (some b), { p with done := true }) := by
    rw [nextBatch_fresh hdone, hb]
    rfl
  have hrest : nextBatch A { p with done := true } = (.ok none, { p with done := true }) :=
    nextBatch_of_done rfl
  exact ⟨b, calls_once hfirst hrest, drains_once hfirst hrest, hspec⟩

/-- The batches of a fresh producer that can be drained hold its rows. -/
theorem StringMatchProducer.decode_of_drains {p : StringMatchProducer}
    (hschema : p.schema = YaraStringMatches.outputSchema) (hdone : p.done = false)
    {bs : List A.RecordBatch} (h : Drains (nextBatch A) p bs) :
    bs.flatMap (decodeStringMatches A) = p.rows.map (fun m => some m.toRow) := by
  by_cases hfits : FitsStrings p.rows
  · obtain ⟨b, _, hdrains, _, _, hdecode⟩ := nextBatch_once (A := A) hschema hdone hfits
    rw [h.unique hdrains, List.flatMap_singleton, hdecode]
  · -- the only call panics, so there is nothing to drain
    have hfirst := nextBatch_fresh (A := A) hdone
    rw [buildBatch_panic hfits] at hfirst
    cases h with
    | stop hnext =>
        rw [hfirst] at hnext
        cases hnext
    | more hnext _ =>
        rw [hfirst] at hnext
        cases hnext

end Spec

end YaraWorker
