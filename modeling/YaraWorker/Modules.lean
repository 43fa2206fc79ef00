/-
# The module table (`table/modules.rs`)

`yara_modules` lists the engine's modules a rule may import.  The catalog
(`yara_modules_table`, main.rs) declares it as a table with a key, so what its producer
emits has to keep what is declared there.

* `modules_lockstep`, `modules_sorted` : the list against the features of the build;
* `ModulesProducer.buildBatch_spec` : the batch holds the list;
* `yaraModules_contract` : every run of the producer keeps the declared contract.
-/
import YaraWorker.ArrowIo
import YaraWorker.Engine
import YaraWorker.FallibleRuns
import YaraWorker.Pull

open FallibleRuns Pull

namespace YaraWorker

/-! ## The table -/

namespace YaraModules

/-- `MODULES`: the modules compiled into the worker, and what a rule uses each for. -/
def modules : List (String × String) :=
  [("console",
      "Emit log messages from a rule's condition while it evaluates, for debugging rule logic."),
    ("elf",
      "Inspect ELF executables: sections, segments, symbols, entry point and machine/type fields."),
    ("hash",
      "Compute MD5, SHA-1, SHA-256, CRC32 and checksums over the file or a byte range for content signatures."),
    ("math",
      "Arithmetic and statistics over byte ranges: entropy, mean, deviation, min/max and serial correlation."),
    ("pe",
      "Inspect Windows PE executables: headers, sections, imports, exports, resources and signatures."),
    ("string",
      "Helpers for working with matched or extracted strings, such as length and byte conversions."),
    ("time",
      "Access the current time so a rule condition can reason about when the scan runs.")]

def moduleCount : ℕ := modules.length

def outputSchema : Schema := [⟨"module", .Utf8, false⟩, ⟨"description", .Utf8, false⟩]

/-- The features of `yara-x` the build enables (`Cargo.toml`). -/
def features : List String :=
  ["constant-folding", "fast-regexp", "exact-atoms", "hash-module", "pe-module", "elf-module",
    "math-module", "string-module", "time-module", "console-module"]

/-- **Lockstep.**  The modules are those of the enabled features. -/
theorem modules_lockstep :
    (modules.map (fun m => m.1 ++ "-module")).Perm
      (features.filter (fun f => "-module".toList.isSuffixOf f.toList)) := by
  decide +kernel

/-- The modules are sorted by name, so no name comes twice. -/
theorem modules_sorted : (modules.map Prod.fst).Pairwise (· < ·) := by decide +kernel

theorem modules_nodup : (modules.map Prod.fst).Nodup := by
  refine modules_sorted.imp (fun {s t} h hst => ?_)
  rw [hst] at h
  exact String.lt_irrefl t h

end YaraModules

/-- The part of a catalog table that speaks of its rows: `primaryKey` lists groups of
columns. -/
structure CatTable where
  name : String
  outputSchema : Schema
  cardinality : Option Int64
  primaryKey : List (List ℕ)
  notNull : List ℕ

/-- `yara_modules_table`. -/
def yaraModulesTable : CatTable where
  name := "yara_modules"
  outputSchema := YaraModules.outputSchema
  cardinality := some (Int64.ofNat YaraModules.moduleCount)
  primaryKey := [[0]]
  notNull := [0]

/-! ## The producer -/

structure ModulesProducer where
  schema : Schema
  done : Bool

def YaraModules.producer (params : ProcessParams) : Outcome ModulesProducer :=
  .ok ⟨params.outputSchema, false⟩

/-- The two column builders of the batch. -/
structure ModulesColumns (A : Arrow) where
  moduleName : A.stringBuilder.State
  description : A.stringBuilder.State

section Batch

variable (A : Arrow)

def ModulesColumns.new : ModulesColumns A := ⟨A.stringBuilder.new, A.stringBuilder.new⟩

variable {A}

/-- The body of the loop over the modules. -/
def ModulesColumns.push (cols : ModulesColumns A) (m : String × String) :
    Outcome (ModulesColumns A) := do
  let moduleName ← A.stringBuilder.appendValue cols.moduleName m.1
  let description ← A.stringBuilder.appendValue cols.description m.2
  pure ⟨moduleName, description⟩

def ModulesColumns.finish (cols : ModulesColumns A) : List A.ArrayRef :=
  [A.stringBuilder.finish cols.moduleName, A.stringBuilder.finish cols.description]

variable (A)

/-- The rest of `next_batch`, once the producer is marked as done. -/
def ModulesProducer.buildBatch (p : ModulesProducer) : Outcome A.RecordBatch := do
  let cols ← YaraModules.modules.foldlM ModulesColumns.push (ModulesColumns.new A)
  (A.tryNew p.schema cols.finish).mapError (fun e => .error (.runtimeError e))

def ModulesProducer.nextBatch (p : ModulesProducer) :
    Outcome (Option A.RecordBatch) × ModulesProducer :=
  if p.done then (.ok none, p)
  else
    let p := { p with done := true }
    (some <$> p.buildBatch A, p)

end Batch

section Spec

variable {A : Arrow}

/-! ## The loop -/

/-- The builders hold the two components of the rows. -/
def ModulesColumns.Holds (cols : ModulesColumns A) (rows : List (String × String)) : Prop :=
  A.stringBuilder.contents cols.moduleName = (rows.map Prod.fst).map some
    ∧ A.stringBuilder.contents cols.description = (rows.map Prod.snd).map some

/-- The two components of the rows fit a string column each. -/
def FitsModules (rows : List (String × String)) : Prop :=
  textLen (rows.map Prod.fst) ≤ i32Max ∧ textLen (rows.map Prod.snd) ≤ i32Max

theorem fitsModules_of_append (xs ys : List (String × String)) (h : FitsModules (xs ++ ys)) :
    FitsModules xs := by
  unfold FitsModules at h ⊢
  simp only [List.map_append, textLen_append] at h
  omega

theorem fitsModules_modules : FitsModules YaraModules.modules := by
  unfold FitsModules
  decide +kernel

theorem ModulesColumns.push_spec {cols : ModulesColumns A} {rows : List (String × String)}
    (h : cols.Holds rows) (m : String × String) (hfits : FitsModules (rows ++ [m])) :
    ∃ cols', cols.push m = .ok cols' ∧ cols'.Holds (rows ++ [m]) := by
  have hconcat : ∀ f : String × String → String, (rows ++ [m]).map f = rows.map f ++ [f m] := by
    intro f
    rw [List.map_append, List.map_singleton]
  obtain ⟨hname, hdescription⟩ := hfits
  rw [hconcat] at hname hdescription
  obtain ⟨name, hname', hnameHolds⟩ := Arrow.string_appendValue_ok h.1 hname
  obtain ⟨description, hdescription', hdescriptionHolds⟩ :=
    Arrow.string_appendValue_ok h.2 hdescription
  refine ⟨⟨name, description⟩, ?_, ?_, ?_⟩
  · unfold push
    rw [hname', hdescription']
    rfl
  · rw [hnameHolds, hconcat]
  · rw [hdescriptionHolds, hconcat]

/-- **The batch holds the list**, in the published schema. -/
theorem ModulesProducer.buildBatch_spec {p : ModulesProducer}
    (hschema : p.schema = YaraModules.outputSchema) :
    ∃ b, p.buildBatch A = .ok b ∧ A.numRows b = YaraModules.moduleCount
      ∧ A.Holds .Utf8 A.stringValue (A.column b 0) ((YaraModules.modules.map Prod.fst).map some)
      ∧ A.Holds .Utf8 A.stringValue (A.column b 1)
          ((YaraModules.modules.map Prod.snd).map some) := by
  obtain ⟨cols, hcols, hholds⟩ := exists_foldlM_eq_ok ModulesColumns.Holds FitsModules
    fitsModules_of_append (fun _ _ m h hfits => ModulesColumns.push_spec h m hfits)
    YaraModules.modules [] (s := ModulesColumns.new A)
    ⟨A.string_lawful.contents_new, A.string_lawful.contents_new⟩ fitsModules_modules
  rw [List.nil_append] at hholds
  have hname := Arrow.string_finish hholds.1
  have hdescription := Arrow.string_finish hholds.2
  have haccepts : A.Accepts YaraModules.outputSchema cols.finish YaraModules.moduleCount :=
    ⟨List.cons_ne_nil _ _,
      .cons (A.column_of_cells hname (List.length_map _))
        (.cons (A.column_of_cells hdescription (List.length_map _)) .nil)⟩
  obtain ⟨b, hb, hrows, hcolumn, -⟩ := A.tryNew_of_accepts haccepts
  refine ⟨b, ?_, hrows, ?_, ?_⟩
  · unfold buildBatch
    rw [hcols, hschema]
    show (A.tryNew YaraModules.outputSchema cols.finish).mapError _ = _
    rw [hb]
    rfl
  · rw [hcolumn 0 _ rfl]
    exact hname
  · rw [hcolumn 1 _ rfl]
    exact hdescription

/-! ## The declared contract -/

/-- The columns `key` tell the rows of a batch apart. -/
def KeyHolds (A : Arrow) (b : A.RecordBatch) (key : List ℕ) : Prop :=
  ∀ i < A.numRows b, ∀ j < A.numRows b,
    (∀ c ∈ key, (A.cells A.stringValue (A.column b c))[i]?
      = (A.cells A.stringValue (A.column b c))[j]?) → i = j

/-- **The rows keep what the catalog declares**, in every run of the producer: their number
is the cardinality, the declared keys tell them apart, the columns declared so are not NULL,
and however often the producer is called they come once. -/
theorem yaraModules_contract (A : Arrow) (params : ProcessParams)
    (hschema : params.outputSchema = yaraModulesTable.outputSchema) :
    ∃ p b, YaraModules.producer params = .ok p
      ∧ (∀ n, calls (ModulesProducer.nextBatch A) (n + 1) p
          = .ok (some b) :: List.replicate n (.ok none))
      ∧ Drains (ModulesProducer.nextBatch A) p [b]
      ∧ yaraModulesTable.cardinality = some (Int64.ofNat (A.numRows b))
      ∧ (∀ key ∈ yaraModulesTable.primaryKey, KeyHolds A b key)
      ∧ ∀ c ∈ yaraModulesTable.notNull, ∀ i < A.numRows b, A.isNull (A.column b c) i = false := by
  obtain ⟨b, hb, hrows, hname, -⟩ := ModulesProducer.buildBatch_spec (A := A)
    (p := ⟨params.outputSchema, true⟩) hschema
  have hfirst : ModulesProducer.nextBatch A ⟨params.outputSchema, false⟩
      = (.ok (some b), ⟨params.outputSchema, true⟩) := by
    rw [ModulesProducer.nextBatch, if_neg Bool.false_ne_true]
    exact congrArg (fun o => (some <$> o, _)) hb
  have hrest : ModulesProducer.nextBatch A ⟨params.outputSchema, true⟩
      = (.ok none, ⟨params.outputSchema, true⟩) := by
    rw [ModulesProducer.nextBatch, if_pos rfl]
  refine ⟨_, b, rfl, calls_once hfirst hrest, drains_once hfirst hrest, by rw [hrows]; rfl, ?_, ?_⟩
  · intro key hkey i hi j hj hsame
    obtain rfl := List.mem_singleton.mp hkey
    have hcell := hsame 0 (List.mem_singleton_self 0)
    rw [hname.2] at hcell
    have hnodup : ((YaraModules.modules.map Prod.fst).map some).Nodup :=
      YaraModules.modules_nodup.map (Option.some_injective _)
    refine (List.getElem?_inj ?_ hnodup).mp hcell
    rwa [List.length_map, List.length_map, ← YaraModules.moduleCount, ← hrows]
  · intro c hc i hi
    obtain rfl := List.mem_singleton.mp hc
    exact (A.column_of_cells (f := ⟨"module", .Utf8, false⟩) hname
      (by rw [hrows, List.length_map]; rfl)).2.2 rfl i hi

end Spec

end YaraWorker
