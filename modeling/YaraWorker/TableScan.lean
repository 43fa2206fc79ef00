/-
# The rule table function (`table/scan.rs`)

`yara_scan` scans once, when its producer is made, and encodes all rows into one
batch at the first call of `nextBatch`.

* `ScanColumns.push_spec` : one row goes onto the three column builders;
* `ScanProducer.buildBatch_spec` : the batch decodes to the rows;
* `ScanProducer.nextBatch_once` : it is emitted once.
-/
import YaraWorker.ArrowIo
import YaraWorker.FallibleRuns
import YaraWorker.Producers
import YaraWorker.Pull

open FallibleRuns Pull

namespace YaraWorker

/-! ## The producer -/

namespace YaraScan

def outputSchema : Schema :=
  [⟨"rule", .Utf8, false⟩, ⟨"namespace", .Utf8, false⟩, ⟨"tags", listVarcharType, false⟩]

end YaraScan

structure ScanProducer where
  schema : Schema
  rows : List RuleMatch
  done : Bool

def YaraScan.producer (Y : YaraX) (params : ProcessParams) : Outcome ScanProducer := do
  let rows ← producerRows Y (scanRules Y) params
  pure { schema := params.outputSchema, rows := rows, done := false }

/-- With both constants the producer stops where compiling does. -/
theorem YaraScan.producer_of_constants {Y : YaraX} {params : ProcessParams} {src : String}
    {data : List UInt8} (hsrc : params.arguments.constStr 1 = some src)
    (hdata : constDataBytes params = some data) :
    YaraScan.producer Y params
      = (fun rules => ⟨params.outputSchema, scanRules Y rules data, false⟩)
          <$> compileOrError Y src := by
  rw [producer, producerRows_of_rules hsrc, hdata]
  cases compileOrError Y src <;> rfl

/-- The three column builders of a batch. -/
structure ScanColumns (A : Arrow) where
  rule : A.stringBuilder.State
  nameSpace : A.stringBuilder.State
  tags : A.listBuilder.State

section Batch

variable (A : Arrow)

def ScanColumns.new : ScanColumns A :=
  ⟨A.stringBuilder.new, A.stringBuilder.new, listVarcharBuilder A⟩

variable {A}

/-- The body of the loop over the rows. -/
def ScanColumns.push (cols : ScanColumns A) (m : RuleMatch) : Outcome (ScanColumns A) := do
  let rule ← A.stringBuilder.appendValue cols.rule m.rule
  let nameSpace ← A.stringBuilder.appendValue cols.nameSpace m.nameSpace
  let tags ← m.tags.foldlM A.listBuilder.valuesAppendValue cols.tags
  let tags ← A.listBuilder.appendTrue tags
  pure { rule := rule, nameSpace := nameSpace, tags := tags }

def ScanColumns.finish (cols : ScanColumns A) : List A.ArrayRef :=
  [A.stringBuilder.finish cols.rule, A.stringBuilder.finish cols.nameSpace,
    A.listBuilder.finish cols.tags]

variable (A)

/-- The rest of `next_batch`, once the producer is marked as done. -/
def ScanProducer.buildBatch (p : ScanProducer) : Outcome A.RecordBatch := do
  let cols ← p.rows.foldlM ScanColumns.push (ScanColumns.new A)
  (A.tryNew p.schema cols.finish).mapError (fun e => .error (.runtimeError e))

def ScanProducer.nextBatch (p : ScanProducer) : Outcome (Option A.RecordBatch) × ScanProducer :=
  if p.done then (.ok none, p)
  else
    let p := { p with done := true }
    (some <$> p.buildBatch A, p)

/-! ## Decoding a batch -/

/-- Row `i` of a batch, or nothing if one of its fields or tags is NULL. -/
def decodeScanRow (b : A.RecordBatch) (i : ℕ) : Option RuleMatch := do
  let rule ← (A.cells A.stringValue (A.column b 0))[i]?.join
  let nameSpace ← (A.cells A.stringValue (A.column b 1))[i]?.join
  let tags ← (A.listCells (A.column b 2))[i]?.join
  let tags ← tags.mapM id
  pure ⟨rule, nameSpace, tags⟩

/-- All rows of a batch. -/
def decodeScan (b : A.RecordBatch) : List (Option RuleMatch) :=
  (List.range (A.numRows b)).map (decodeScanRow A b)

end Batch

section Spec

variable {A : Arrow}

theorem mapM_id_map_some {α : Type} (xs : List α) : (xs.map some).mapM id = some xs := by
  induction xs with
  | nil => rfl
  | cons x xs ih => rw [List.map_cons, List.mapM_cons, ih]; rfl

/-- Three columns that hold the fields of the rows decode to the rows. -/
theorem decodeScan_eq {b : A.RecordBatch} {rows : List RuleMatch} (hrows : A.numRows b = rows.length)
    (hrule : A.cells A.stringValue (A.column b 0) = (rows.map RuleMatch.rule).map some)
    (hnameSpace : A.cells A.stringValue (A.column b 1) = (rows.map RuleMatch.nameSpace).map some)
    (htags : A.listCells (A.column b 2) = (rows.map RuleMatch.tags).map (fun t => some (t.map some))) :
    decodeScan A b = rows.map some := by
  refine List.ext_getElem (by simp [decodeScan, hrows]) (fun i h₁ h₂ => ?_)
  have hi : i < rows.length := by simpa using h₂
  have hrow : decodeScanRow A b i = some rows[i] := by
    unfold decodeScanRow
    rw [hrule, hnameSpace, htags]
    simp only [List.getElem?_map, List.getElem?_eq_getElem hi, Option.map_some, Option.join_some]
    show ((rows[i].tags.map some).mapM id).bind _ = _
    rw [mapM_id_map_some]
    rfl
  simpa [decodeScan] using hrow

/-! ## The loop -/

/-- The rows fit the three columns: the text of each, and the number of tags. -/
def FitsScan (rows : List RuleMatch) : Prop :=
  textLen (rows.map RuleMatch.rule) ≤ i32Max ∧ textLen (rows.map RuleMatch.nameSpace) ≤ i32Max
    ∧ textLen (rows.flatMap RuleMatch.tags) ≤ i32Max ∧ (rows.flatMap RuleMatch.tags).length ≤ i32Max

instance : DecidablePred FitsScan := fun _ => inferInstanceAs (Decidable (_ ∧ _))

theorem fitsScan_of_append (xs ys : List RuleMatch) (h : FitsScan (xs ++ ys)) : FitsScan xs := by
  unfold FitsScan at h ⊢
  simp only [List.map_append, List.flatMap_append, textLen_append, List.length_append] at h
  omega

/-- The builders hold the fields of the rows; no list is open. -/
structure ScanColumns.Holds (cols : ScanColumns A) (rows : List RuleMatch) : Prop where
  rule : A.stringBuilder.contents cols.rule = (rows.map RuleMatch.rule).map some
  nameSpace : A.stringBuilder.contents cols.nameSpace = (rows.map RuleMatch.nameSpace).map some
  closed : A.listBuilder.closed cols.tags = rows.map RuleMatch.tags
  pending : A.listBuilder.pending cols.tags = []
  field : A.listBuilder.field cols.tags = ⟨"item", .Utf8, true⟩

theorem ScanColumns.holds_new : (ScanColumns.new A).Holds [] where
  rule := A.string_lawful.contents_new
  nameSpace := A.string_lawful.contents_new
  closed := A.list_lawful.closed_new _
  pending := A.list_lawful.pending_new _
  field := A.list_lawful.field_new _

/-- The inner loop leaves the tags of one row pending behind the closed lists. -/
theorem tags_spec (b : A.listBuilder.State) (tags : List String)
    (hpending : A.listBuilder.pending b = [])
    (hfits : textLen ((A.listBuilder.closed b).flatten ++ tags) ≤ i32Max) :
    ∃ b', tags.foldlM A.listBuilder.valuesAppendValue b = .ok b'
      ∧ A.listBuilder.closed b' = A.listBuilder.closed b ∧ A.listBuilder.pending b' = tags
      ∧ A.listBuilder.field b' = A.listBuilder.field b := by
  refine exists_foldlM_eq_ok
    (fun b' pre => A.listBuilder.closed b' = A.listBuilder.closed b
      ∧ A.listBuilder.pending b' = pre ∧ A.listBuilder.field b' = A.listBuilder.field b)
    (fun pre => textLen ((A.listBuilder.closed b).flatten ++ pre) ≤ i32Max)
    ?_ ?_ tags [] ⟨rfl, hpending, rfl⟩ hfits
  · intro xs ys h
    rw [← List.append_assoc, textLen_append] at h
    omega
  · rintro b' pre s ⟨hclosed, hpre, hfield⟩ h
    rw [← hclosed, ← hpre, ← List.append_assoc] at h
    obtain ⟨b'', hb'', hclosed', hpending', hfield'⟩ := A.list_lawful.valuesAppendValue_ok b' s h
    exact ⟨b'', hb'', hclosed'.trans hclosed, by rw [hpending', hpre], hfield'.trans hfield⟩

/-- **One row** goes onto the three builders, its tags as one closed list. -/
theorem ScanColumns.push_spec {cols : ScanColumns A} {rows : List RuleMatch} (h : cols.Holds rows)
    (m : RuleMatch) (hfits : FitsScan (rows ++ [m])) :
    ∃ cols', cols.push m = .ok cols' ∧ cols'.Holds (rows ++ [m]) := by
  obtain ⟨hrule, hnameSpace, htext, hcount⟩ := hfits
  have hconcat : ∀ f : RuleMatch → String, (rows ++ [m]).map f = rows.map f ++ [f m] := by
    intro f
    rw [List.map_append, List.map_singleton]
  rw [hconcat] at hrule hnameSpace
  -- the child column holds the tags of the closed lists, then those of `m`
  rw [List.flatMap_append, List.flatMap_singleton, List.flatMap_def, ← h.closed] at htext hcount
  obtain ⟨rule, hrule', hruleHolds⟩ := Arrow.string_appendValue_ok h.rule hrule
  obtain ⟨nameSpace, hnameSpace', hnameSpaceHolds⟩ :=
    Arrow.string_appendValue_ok h.nameSpace hnameSpace
  obtain ⟨tags, htags', hclosed, hpending, hfield⟩ := tags_spec cols.tags m.tags h.pending htext
  obtain ⟨tags', hclose, hclosed', hpending', hfield'⟩ :=
    A.list_lawful.appendTrue_ok tags (by rwa [hclosed, hpending])
  refine ⟨⟨rule, nameSpace, tags'⟩, ?_, ⟨?_, ?_, ?_, hpending', hfield'.trans (hfield.trans h.field)⟩⟩
  · unfold push
    rw [hrule', hnameSpace', htags']
    show (A.listBuilder.appendTrue tags).bind _ = _
    rw [hclose]
    rfl
  · rw [hruleHolds, hconcat]
  · rw [hnameSpaceHolds, hconcat]
  · rw [hclosed', hclosed, hpending, h.closed, List.map_append, List.map_singleton]

/-- The finished tag column. -/
theorem ScanColumns.Holds.finish_tags {cols : ScanColumns A} {rows : List RuleMatch}
    (h : cols.Holds rows) :
    A.dataType (A.listBuilder.finish cols.tags) = listVarcharType
      ∧ A.listCells (A.listBuilder.finish cols.tags)
          = (rows.map (fun m => m.tags.map some)).map some := by
  obtain ⟨hty, hcells⟩ := A.list_lawful.holds_finish cols.tags
  rw [h.field] at hty
  rw [h.closed, List.map_map] at hcells
  refine ⟨hty, ?_⟩
  rw [hcells, List.map_map]
  rfl

/-- The published schema takes the finished columns. -/
theorem ScanColumns.Holds.accepts_finish {cols : ScanColumns A} {rows : List RuleMatch}
    (h : cols.Holds rows) : A.Accepts YaraScan.outputSchema cols.finish rows.length := by
  exact ⟨List.cons_ne_nil _ _,
    .cons (A.column_of_cells (Arrow.string_finish h.rule) (List.length_map _))
      (.cons (A.column_of_cells (Arrow.string_finish h.nameSpace) (List.length_map _))
        (.cons (A.column_of_cells h.finish_tags (List.length_map _)) .nil))⟩

/-- **The batch decodes to the rows**, in the published schema. -/
theorem ScanProducer.buildBatch_spec {p : ScanProducer} (hschema : p.schema = YaraScan.outputSchema)
    (hfits : FitsScan p.rows) :
    ∃ b, p.buildBatch A = .ok b ∧ A.numRows b = p.rows.length
      ∧ (∀ i < 3, A.len (A.column b i) = p.rows.length) ∧ decodeScan A b = p.rows.map some := by
  obtain ⟨cols, hcols, hholds⟩ := exists_foldlM_eq_ok ScanColumns.Holds FitsScan
    fitsScan_of_append (fun _ _ m h hfits => ScanColumns.push_spec h m hfits) p.rows []
    (ScanColumns.holds_new (A := A)) hfits
  rw [List.nil_append] at hholds
  obtain ⟨b, hb, hrows, hcolumn, hlen⟩ := A.tryNew_of_accepts hholds.accepts_finish
  have hrule := hcolumn 0 _ rfl
  have hnameSpace := hcolumn 1 _ rfl
  have htags := hcolumn 2 _ rfl
  refine ⟨b, ?_, hrows, hlen, ?_⟩
  · unfold buildBatch
    rw [hcols, hschema]
    show (A.tryNew YaraScan.outputSchema cols.finish).mapError _ = _
    rw [hb]
    rfl
  · refine decodeScan_eq hrows ?_ ?_ ?_
    · rw [hrule]
      exact (Arrow.string_finish hholds.rule).2
    · rw [hnameSpace]
      exact (Arrow.string_finish hholds.nameSpace).2
    · rw [htags, hholds.finish_tags.2, List.map_map, List.map_map]
      rfl

/-! ## Calls of `next_batch` -/

theorem ScanProducer.nextBatch_of_done {p : ScanProducer} (h : p.done = true) :
    p.nextBatch A = (.ok none, p) := by
  rw [nextBatch, if_pos h]

theorem ScanProducer.nextBatch_fresh {p : ScanProducer} (h : p.done = false) :
    p.nextBatch A = (some <$> p.buildBatch A, { p with done := true }) := by
  rw [nextBatch, if_neg (by rw [h]; exact Bool.false_ne_true)]
  rfl

/-- **A fresh producer emits its rows once.** -/
theorem ScanProducer.nextBatch_once {p : ScanProducer} (hschema : p.schema = YaraScan.outputSchema)
    (hdone : p.done = false) (hfits : FitsScan p.rows) :
    ∃ b, (∀ n, calls (nextBatch A) (n + 1) p = .ok (some b) :: List.replicate n (.ok none))
      ∧ Drains (nextBatch A) p [b] ∧ A.numRows b = p.rows.length
      ∧ (∀ i < 3, A.len (A.column b i) = p.rows.length) ∧ decodeScan A b = p.rows.map some := by
  obtain ⟨b, hb, hspec⟩ := p.buildBatch_spec (A := A) hschema hfits
  have hfirst : p.nextBatch A = (.ok (some b), { p with done := true }) := by
    rw [nextBatch_fresh hdone, hb]
    rfl
  have hrest : nextBatch A { p with done := true } = (.ok none, { p with done := true }) :=
    nextBatch_of_done rfl
  exact ⟨b, calls_once hfirst hrest, drains_once hfirst hrest, hspec⟩

end Spec

end YaraWorker
