/-
# The scan scalars (`scalar/matches.rs`)

`yara_matches`, `yara_first_rule` and `yara_match_count` share one loop,
`processKind`, that differs by `Kind` in the output builder (`Out`) and in the
projection of the matching rules that `Out.append` makes.

* `Out.append_spec`, `Out.appendNull_spec` : one step of an output builder, in
  terms of the cells it holds;
* `Out.finish_spec`, `tryNew_output` : the finished column and its batch.
-/
import YaraWorker.ArrowIo
import YaraWorker.RuleCache

open Columnar

namespace YaraWorker

/-! ## Kinds and output builders -/

/-- Which projection of a scan a given scalar produces. -/
inductive Kind
  | Matches
  | FirstRule
  | MatchCount
  deriving DecidableEq, Repr

def returnType : Kind → DataType
  | .Matches => .Boolean
  | .FirstRule => .Utf8
  | .MatchCount => .Int32

/-- The schema `on_bind` publishes. -/
def onBind (V : Vgi) (kind : Kind) : Schema := V.result (returnType kind)

/-- One output cell builder, by kind. -/
inductive Out (A : Arrow)
  | Matches (b : A.booleanBuilder.State)
  | FirstRule (b : A.stringBuilder.State)
  | MatchCount (b : A.int32Builder.State)

namespace Out

variable {A : Arrow}

def new (A : Arrow) : Kind → Out A
  | .Matches => Matches A.booleanBuilder.new
  | .FirstRule => FirstRule A.stringBuilder.new
  | .MatchCount => MatchCount A.int32Builder.new

def appendNull : Out A → Out A
  | Matches b => Matches (A.booleanBuilder.appendNull b)
  | FirstRule b => FirstRule (A.stringBuilder.appendNull b)
  | MatchCount b => MatchCount (A.int32Builder.appendNull b)

/-- Append one row's projection.  The count is cast with `as i32`. -/
def append (Y : YaraX) (out : Out A) (rules : Y.Rules) (data : List UInt8) : Outcome (Out A) :=
  match out with
  | Matches b =>
      let any := !(scanRules Y rules data).isEmpty
      Matches <$> A.booleanBuilder.appendValue b any
  | FirstRule b =>
      let m := scanRules Y rules data
      match m.head? with
      | some first => FirstRule <$> A.stringBuilder.appendValue b first.rule
      | none => pure (FirstRule (A.stringBuilder.appendNull b))
  | MatchCount b =>
      let n := Int32.ofNat (scanRules Y rules data).length
      MatchCount <$> A.int32Builder.appendValue b n

def finish : Out A → A.ArrayRef
  | Matches b => A.booleanBuilder.finish b
  | FirstRule b => A.stringBuilder.finish b
  | MatchCount b => A.int32Builder.finish b

end Out

/-! ## The loop -/

section Process

variable (A : Arrow) (Y : YaraX)

/-- The body of the loop: one row, with the cache and the builder it is given. -/
def processRow (dataCol rulesCol : A.ArrayRef) (state : RuleCache Y × Out A) (i : ℕ) :
    Outcome (RuleCache Y × Out A) := do
  let (cache, out) := state
  let data ← blobBytes A dataCol i
  let src ← textStr A rulesCol i
  match data, src with
  | some bytes, some src =>
      let (rules, cache) := cache.get src
      let out ← out.append Y (← rules) bytes
      pure (cache, out)
  -- either operand NULL → NULL out; the cache is not touched
  | _, _ => pure (cache, out.appendNull)

/-- The common process loop, parameterized by kind. -/
def processKind (kind : Kind) (params : ProcessParams) (batch : A.RecordBatch) :
    Outcome A.RecordBatch := do
  let dataCol := A.column batch 0
  let rulesCol := A.column batch 1
  let rows := A.numRows batch
  let (_, out) ← (List.range rows).foldlM (processRow A Y dataCol rulesCol)
    (RuleCache.default, Out.new A kind)
  let arr := out.finish
  (A.tryNew params.outputSchema [arr]).mapError (fun e => .error (.runtimeError e))

end Process

/-! ## Operands -/

/-- Both operands of a row, or nothing when one of them is NULL. -/
def operands (A : Arrow) (dataCol rulesCol : A.ArrayRef) (i : ℕ) :
    Outcome (Option (List UInt8 × String)) := do
  let data ← blobBytes A dataCol i
  let src ← textStr A rulesCol i
  pure (data.bind (fun bytes => src.map (fun src => (bytes, src))))

/-- The loop body, once its operands are read. -/
theorem processRow_eq {A : Arrow} {Y : YaraX} (dataCol rulesCol : A.ArrayRef)
    (cache : RuleCache Y) (out : Out A) (i : ℕ) :
    processRow A Y dataCol rulesCol (cache, out) i = (do
      match ← operands A dataCol rulesCol i with
      | some (bytes, src) => do
          let out ← out.append Y (← (cache.get src).1) bytes
          pure ((cache.get src).2, out)
      | none => pure (cache, out.appendNull)) := by
  unfold processRow operands
  cases blobBytes A dataCol i with
  | error e => rfl
  | ok data =>
      cases textStr A rulesCol i with
      | error e => rfl
      | ok src => rcases data with _ | bytes <;> rcases src with _ | src <;> rfl

section Operands

variable {A : Arrow} {dataCol rulesCol : A.ArrayRef} {i : ℕ}

theorem operands_of_ok {data : Option (List UInt8)} {src : Option String}
    (hdata : blobBytes A dataCol i = .ok data) (hsrc : textStr A rulesCol i = .ok src) :
    operands A dataCol rulesCol i
      = .ok (data.bind (fun bytes => src.map (fun src => (bytes, src)))) := by
  unfold operands
  rw [hdata, hsrc]
  rfl

/-- One NULL is enough. -/
theorem operands_of_none {data : Option (List UInt8)} {src : Option String}
    (hdata : blobBytes A dataCol i = .ok data) (hsrc : textStr A rulesCol i = .ok src)
    (h : data = none ∨ src = none) : operands A dataCol rulesCol i = .ok none := by
  rw [operands_of_ok hdata hsrc]
  rcases h with rfl | rfl
  · rfl
  · cases data <;> rfl

theorem operands_eq_ok_iff {o : Option (List UInt8 × String)} :
    operands A dataCol rulesCol i = .ok o
      ↔ ∃ data src, blobBytes A dataCol i = .ok data ∧ textStr A rulesCol i = .ok src
        ∧ o = data.bind (fun bytes => src.map (fun src => (bytes, src))) := by
  constructor
  · unfold operands
    rcases blobBytes A dataCol i with e | data
    · intro h
      cases h
    · rcases textStr A rulesCol i with e | src
      · intro h
        cases h
      · intro h
        cases h
        exact ⟨data, src, rfl, rfl, rfl⟩
  · rintro ⟨data, src, hdata, hsrc, rfl⟩
    exact operands_of_ok hdata hsrc

/-- A row without NULLs that can be read gives what the columns store. -/
theorem operands_of_not_null {o : Option (List UInt8 × String)}
    (h : operands A dataCol rulesCol i = .ok o) (hdata : A.isNull dataCol i = false)
    (hrules : A.isNull rulesCol i = false) :
    o = some (cellBytes A.toArrowArrays dataCol i, A.stringValue rulesCol i) := by
  obtain ⟨data, src, hd, hs, rfl⟩ := operands_eq_ok_iff.mp h
  rw [blobBytes_eq_ok_iff, hdata] at hd
  rw [textStr_eq_ok_iff, hrules] at hs
  rcases hd with ⟨hd, _⟩ | ⟨_, _, rfl⟩
  · cases hd
  · rcases hs with ⟨hs, _⟩ | ⟨_, _, rfl⟩
    · cases hs
    · rfl

end Operands

/-- The operands in a BLOB column and a VARCHAR column. -/
theorem operands_columns (data : List (Option (List UInt8))) (rules : List (Option String))
    {i : ℕ} (hdata : i < data.length) (hrules : i < rules.length) :
    operands columnar (blobColumn .Binary data) (textColumn .Utf8 rules) i
      = .ok (data[i].bind (fun bytes => rules[i].map (fun src => (bytes, src)))) :=
  operands_of_ok (blobBytes_blobColumn (Or.inl rfl) data hdata)
    (textStr_textColumn (Or.inl rfl) rules hrules)

/-! ## Output cells -/

/-- One output cell, as SQL sees it. -/
inductive Cell
  | null
  | boolean (b : Bool)
  | varchar (s : String)
  | int (n : Int32)
  deriving DecidableEq

/-- The bytes of text a cell holds. -/
def Cell.textLen : Cell → ℕ
  | varchar s => s.utf8ByteSize
  | _ => 0

/-- Output cells fit the builders when their text fits 32-bit offsets. -/
def FitsCells (cells : List Cell) : Prop := (cells.map Cell.textLen).sum ≤ i32Max

instance : DecidablePred FitsCells := fun _ => inferInstanceAs (Decidable (_ ≤ _))

/-- The cell a kind makes of the matching rules. -/
def Kind.project : Kind → List RuleMatch → Cell
  | .Matches, m => .boolean (!m.isEmpty)
  | .FirstRule, m => (m.head?.map (fun first => Cell.varchar first.rule)).getD .null
  | .MatchCount, m => .int (Int32.ofNat m.length)

/-- The cells of an output column. -/
def Kind.decode (A : ArrowArrays) (kind : Kind) (col : A.ArrayRef) : List Cell :=
  match kind with
  | .Matches => (A.cells A.booleanValue col).map (fun c => (c.map Cell.boolean).getD .null)
  | .FirstRule => (A.cells A.stringValue col).map (fun c => (c.map Cell.varchar).getD .null)
  | .MatchCount => (A.cells A.int32Value col).map (fun c => (c.map Cell.int).getD .null)

/-- An output batch: one column of the kind's type that holds the cells. -/
def IsOutput (A : Arrow) (kind : Kind) (b : A.RecordBatch) (cells : List Cell) : Prop :=
  A.numRows b = cells.length ∧ A.dataType (A.column b 0) = returnType kind
    ∧ kind.decode A.toArrowArrays (A.column b 0) = cells

theorem fitsCells_of_append {xs ys : List Cell} (h : FitsCells (xs ++ ys)) : FitsCells xs := by
  unfold FitsCells at h ⊢
  rw [List.map_append, List.sum_append] at h
  omega

theorem fitsCells_append_null {cells : List Cell} :
    FitsCells (cells ++ [.null]) ↔ FitsCells cells := by
  unfold FitsCells
  rw [List.map_append, List.sum_append]
  exact Iff.rfl

/-- Cells without text always fit. -/
theorem fitsCells_of_textLen {cells : List Cell} (h : ∀ c ∈ cells, c.textLen = 0) :
    FitsCells cells := by
  unfold FitsCells
  rw [List.sum_eq_zero_iff_forall_eq_nat.mpr (by simpa using h)]
  exact Nat.zero_le _

/-- A column of values without text always fits. -/
theorem fitsCells_values {α : Type} {toCell : α → Cell} (h : ∀ v, (toCell v).textLen = 0)
    (cells : List (Option α)) (v : α) :
    FitsCells (cells.map (fun c => (c.map toCell).getD .null) ++ [toCell v]) := by
  refine fitsCells_of_textLen (fun c hc => ?_)
  rcases List.mem_append.mp hc with hc | hc
  · obtain ⟨x, _, rfl⟩ := List.mem_map.mp hc
    cases x with
    | none => rfl
    | some v => exact h v
  · rw [List.mem_singleton.mp hc]
    exact h v

/-- Text cells fit exactly when their strings do. -/
theorem fitsCells_varchar (cells : List (Option String)) :
    FitsCells (cells.map (fun c => (c.map Cell.varchar).getD .null)) ↔ FitsText cells := by
  have hsum : ((cells.map (fun c => (c.map Cell.varchar).getD .null)).map Cell.textLen).sum
      = textLen (cells.filterMap id) := by
    induction cells with
    | nil => rfl
    | cons c cells ih =>
        rw [List.map_cons, List.map_cons, List.sum_cons, ih]
        cases c with
        | none => exact Nat.zero_add _
        | some s => rfl
  rw [FitsCells, hsum, FitsText]

/-! ## What one step of a builder does -/

namespace Out

variable {A : Arrow} {Y : YaraX}

def kind : Out A → Kind
  | Matches _ => .Matches
  | FirstRule _ => .FirstRule
  | MatchCount _ => .MatchCount

/-- The cells a builder holds. -/
def cells : Out A → List Cell
  | Matches b => (A.booleanBuilder.contents b).map (fun c => (c.map Cell.boolean).getD .null)
  | FirstRule b => (A.stringBuilder.contents b).map (fun c => (c.map Cell.varchar).getD .null)
  | MatchCount b => (A.int32Builder.contents b).map (fun c => (c.map Cell.int).getD .null)

@[simp] theorem kind_new (k : Kind) : (new A k).kind = k := by
  cases k <;> rfl

@[simp] theorem cells_new (k : Kind) : (new A k).cells = [] := by
  cases k with
  | Matches => exact congrArg (List.map _) A.boolean_lawful.contents_new
  | FirstRule => exact congrArg (List.map _) A.string_lawful.contents_new
  | MatchCount => exact congrArg (List.map _) A.int32_lawful.contents_new

/-- A NULL is always appended. -/
theorem appendNull_spec (out : Out A) :
    out.appendNull.kind = out.kind ∧ out.appendNull.cells = out.cells ++ [.null] := by
  cases out with
  | Matches b =>
      refine ⟨rfl, ?_⟩
      rw [appendNull, cells, A.boolean_lawful.contents_appendNull, List.map_append]
      rfl
  | FirstRule b =>
      refine ⟨rfl, ?_⟩
      rw [appendNull, cells, A.string_lawful.contents_appendNull, List.map_append]
      rfl
  | MatchCount b =>
      refine ⟨rfl, ?_⟩
      rw [appendNull, cells, A.int32_lawful.contents_appendNull, List.map_append]
      rfl

/-- A builder of a column without text takes any value. -/
theorem append_unlimited {α : Type} {B : Builder A.ArrayRef α}
    {holds : A.ArrayRef → List (Option α) → Prop} (hB : B.Lawful Unlimited holds)
    (toOut : B.State → Out A) (toCell : α → Cell) (k : Kind)
    (hkind : ∀ b, (toOut b).kind = k)
    (hcells : ∀ b, (toOut b).cells = (B.contents b).map (fun c => (c.map toCell).getD .null))
    (b : B.State) (v : α) :
    ∃ out', toOut <$> B.appendValue b v = .ok out' ∧ out'.kind = k
      ∧ out'.cells = (toOut b).cells ++ [toCell v] := by
  obtain ⟨b', hb', hcontents⟩ := hB.appendValue_ok b v trivial
  refine ⟨toOut b', by rw [hb']; rfl, hkind b', ?_⟩
  rw [hcells, hcells, hcontents, List.map_append]
  rfl

/-- **One row's projection.**  If the row's cell still fits, it is appended;
otherwise the builder panics. -/
theorem append_spec {out : Out A} (hout : FitsCells out.cells) (rules : Y.Rules)
    (data : List UInt8) :
    (FitsCells (out.cells ++ [out.kind.project (scanRules Y rules data)]) →
      ∃ out', out.append Y rules data = .ok out' ∧ out'.kind = out.kind
        ∧ out'.cells = out.cells ++ [out.kind.project (scanRules Y rules data)])
    ∧ (¬ FitsCells (out.cells ++ [out.kind.project (scanRules Y rules data)]) →
      out.append Y rules data = .error .panic) := by
  cases out with
  | Matches b =>
      have happend := append_unlimited A.boolean_lawful Matches Cell.boolean .Matches
        (fun _ => rfl) (fun _ => rfl) b (!(scanRules Y rules data).isEmpty)
      exact ⟨fun _ => happend, fun h => absurd (fitsCells_values (fun _ => rfl) _ _) h⟩
  | MatchCount b =>
      have happend := append_unlimited A.int32_lawful MatchCount Cell.int .MatchCount
        (fun _ => rfl) (fun _ => rfl) b (Int32.ofNat (scanRules Y rules data).length)
      exact ⟨fun _ => happend, fun h => absurd (fitsCells_values (fun _ => rfl) _ _) h⟩
  | FirstRule b =>
      unfold append
      simp only [kind, Kind.project]
      cases hm : (scanRules Y rules data).head? with
      | none =>
          -- no rule matches: the builder appends a NULL, which takes no room
          obtain ⟨hkind, hcells⟩ := appendNull_spec (FirstRule b)
          refine ⟨fun _ => ⟨_, rfl, hkind, hcells⟩, fun h => absurd (fitsCells_append_null.mpr hout) h⟩
      | some first =>
          have hfits : FitsCells ((FirstRule b).cells ++ [.varchar first.rule])
              ↔ FitsText (A.stringBuilder.contents b ++ [some first.rule]) := by
            rw [← fitsCells_varchar, List.map_append]
            rfl
          constructor
          · intro h
            obtain ⟨b', hb', hcontents⟩ := A.string_lawful.appendValue_ok b _ (hfits.mp h)
            refine ⟨FirstRule b', ?_, rfl, ?_⟩
            · show FirstRule <$> A.stringBuilder.appendValue b first.rule = _
              rw [hb']
              rfl
            · rw [cells, hcontents, List.map_append]
              rfl
          · intro h
            have hb' := A.string_lawful.appendValue_panic b _ (fun hf => h (hfits.mpr hf))
            show FirstRule <$> A.stringBuilder.appendValue b first.rule = _
            rw [hb']
            rfl

/-- The finished column is of the kind's type and holds the builder's cells. -/
theorem finish_spec (out : Out A) :
    A.dataType out.finish = returnType out.kind
      ∧ out.kind.decode A.toArrowArrays out.finish = out.cells := by
  cases out with
  | Matches b =>
      obtain ⟨hty, hcells⟩ := A.boolean_lawful.holds_finish b
      exact ⟨hty, congrArg (List.map _) hcells⟩
  | FirstRule b =>
      obtain ⟨hty, hcells⟩ := A.string_lawful.holds_finish b
      exact ⟨hty, congrArg (List.map _) hcells⟩
  | MatchCount b =>
      obtain ⟨hty, hcells⟩ := A.int32_lawful.holds_finish b
      exact ⟨hty, congrArg (List.map _) hcells⟩

end Out

/-! ## The output batch -/

theorem length_decode (A : ArrowArrays) (kind : Kind) (col : A.ArrayRef) :
    (kind.decode A col).length = A.len col := by
  cases kind <;> exact (List.length_map _).trans (A.length_cells _ col)

/-- The schema `on_bind` publishes takes every finished column. -/
theorem tryNew_output {A : Arrow} (V : Vgi) (out : Out A) :
    ∃ b, A.tryNew (onBind V out.kind) [out.finish] = .ok b ∧ IsOutput A out.kind b out.cells := by
  obtain ⟨hty, hdecode⟩ := out.finish_spec
  obtain ⟨b, hb, hrows, hcolumn⟩ := V.tryNew_result hty
  refine ⟨b, hb, ?_, hcolumn ▸ hty, hcolumn ▸ hdecode⟩
  rw [hrows, ← hdecode, length_decode]

end YaraWorker
