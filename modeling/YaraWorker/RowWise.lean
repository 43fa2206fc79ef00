/-
# Row-wise operators

An operator that computes one entry for each row, left to right, into a buffer of
limited capacity (`fill`), seen from outside: what its answer becomes when the rows are
picked, cut into chunks or changed.

* `fill_eq_error_iff` : the row an operator stops at;
* `Picks.mapM_eq_ok` : rows picked in any order, with repetitions;
* `mapM_flatten_agree` : a column cut into chunks, without a limit;
* `fill_flatten_ok`, `fill_flatten_of_ok`, `mapM_fill_of_flatten_error`,
  `fill_flatten_of_error` : the same with one;
* `fill_error_of_same_errors` : rows changed without changing their errors.
-/
import Mathlib.Data.List.Perm.Subperm
import YaraWorker.FallibleRuns

namespace FallibleRuns

variable {ε α α' β : Type*}

/-- Two results that agree with a third agree, through what they have in common. -/
theorem Agree.common {σ τ υ : Type*} {R : σ → υ → Prop} {S : τ → υ → Prop} {x : Except ε σ}
    {y : Except ε τ} {z : Except ε υ} (hx : Agree R x z) (hy : Agree S y z) :
    Agree (fun s t => ∃ u, R s u ∧ S t u) x y := by
  cases hx with
  | stopped e =>
      cases hy with
      | stopped => exact Agree.stopped e
  | done hR =>
      cases hy with
      | done hS => exact Agree.done ⟨_, hR, hS⟩

/-- Agreement through a result between the two. -/
theorem Agree.trans {σ τ υ : Type*} {R : σ → τ → Prop} {S : τ → υ → Prop} {x : Except ε σ}
    {y : Except ε τ} {z : Except ε υ} (hx : Agree R x y) (hy : Agree S y z) :
    Agree (fun s u => ∃ t, R s t ∧ S t u) x z := by
  cases hx with
  | stopped e =>
      cases hy with
      | stopped => exact Agree.stopped e
  | done hR =>
      cases hy with
      | done hS => exact Agree.done ⟨_, hR, hS⟩

/-- Results that agree stop together. -/
theorem Agree.error_iff {σ τ : Type*} {R : σ → τ → Prop} {x : Except ε σ} {y : Except ε τ}
    (h : Agree R x y) (e : ε) : x = .error e ↔ y = .error e := by
  cases h with
  | stopped e' => simp
  | done hR => simp

/-- A weaker relation between the values. -/
theorem Agree.mono {σ τ : Type*} {R S : σ → τ → Prop} {x : Except ε σ} {y : Except ε τ}
    (h : Agree R x y) (hRS : ∀ s t, R s t → S s t) : Agree S x y := by
  cases h with
  | stopped e => exact Agree.stopped e
  | done hR => exact Agree.done (hRS _ _ hR)

/-! ## Rows of a collecting run -/

/-- Equal rows of two collecting runs have equal entries. -/
theorem getElem?_eq_of_mapM_eq_ok {f : α → Except ε β} {l l' : List α} {bs bs' : List β}
    (h : l.mapM f = .ok bs) (h' : l'.mapM f = .ok bs') {i j : ℕ} {a : α} (hi : l[i]? = some a)
    (hj : l'[j]? = some a) : bs[i]? = bs'[j]? := by
  obtain ⟨b, hb, hfb⟩ := getElem?_of_mapM_eq_ok h hi
  obtain ⟨b', hb', hfb'⟩ := getElem?_of_mapM_eq_ok h' hj
  rw [hfb] at hfb'
  injection hfb' with hbb
  rw [hb, hb', hbb]

/-- A collecting run stops at its first row or at a later one. -/
theorem mapM_cons_eq_error_iff {f : α → Except ε β} {a : α} {l : List α} {e : ε} :
    (a :: l).mapM f = .error e
      ↔ f a = .error e ∨ ∃ b, f a = .ok b ∧ l.mapM f = .error e := by
  rw [List.mapM_cons]
  cases f a with
  | error e' =>
      show Except.error e' = Except.error e ↔ _
      simp
  | ok b =>
      cases l.mapM f with
      | error e' =>
          show Except.error e' = Except.error e ↔ _
          simp
      | ok bs =>
          show Except.ok (b :: bs) = Except.error e ↔ _
          simp

/-- A collecting run over two lists in turn. -/
theorem mapM_append_eq_ok_iff {f : α → Except ε β} {l₁ l₂ : List α} {bs : List β} :
    (l₁ ++ l₂).mapM f = .ok bs
      ↔ ∃ bs₁ bs₂, l₁.mapM f = .ok bs₁ ∧ l₂.mapM f = .ok bs₂ ∧ bs = bs₁ ++ bs₂ := by
  induction l₁ generalizing bs with
  | nil =>
      rw [List.nil_append]
      constructor
      · intro h
        exact ⟨[], bs, rfl, h, rfl⟩
      · rintro ⟨bs₁, bs₂, hbs₁, hbs₂, rfl⟩
        cases hbs₁
        exact hbs₂
  | cons a l₁ ih =>
      rw [List.cons_append, mapM_cons_eq_ok_iff]
      constructor
      · rintro ⟨b, bs', hb, hbs', rfl⟩
        obtain ⟨bs₁, bs₂, hbs₁, hbs₂, rfl⟩ := ih.mp hbs'
        exact ⟨b :: bs₁, bs₂, (mapM_cons_eq_ok_iff f a l₁ _).mpr ⟨b, bs₁, hb, hbs₁, rfl⟩, hbs₂, rfl⟩
      · rintro ⟨bs₁, bs₂, hbs₁, hbs₂, rfl⟩
        obtain ⟨b, bs₁', hb, hbs₁', rfl⟩ := (mapM_cons_eq_ok_iff f a l₁ _).mp hbs₁
        exact ⟨b, bs₁' ++ bs₂, hb, ih.mpr ⟨bs₁', bs₂, hbs₁', hbs₂, rfl⟩, rfl⟩

/-- **A collecting run over chunks** collects the chunks, or stops as the first of them that
stops. -/
theorem mapM_flatten_agree (f : α → Except ε β) (ls : List (List α)) :
    Agree (fun bs bss => bs = bss.flatten) (ls.flatten.mapM f) (ls.mapM (fun l => l.mapM f)) := by
  induction ls with
  | nil => exact Agree.done rfl
  | cons l ls ih =>
      rw [List.flatten_cons, List.mapM_append, List.mapM_cons]
      cases l.mapM f with
      | error e => exact Agree.stopped e
      | ok bs =>
          refine ih.bind (fun bs' bss h => Agree.done ?_)
          rw [h, List.flatten_cons]

theorem mapM_flatten_eq_ok_iff {f : α → Except ε β} {ls : List (List α)} {bs : List β} :
    ls.flatten.mapM f = .ok bs
      ↔ ∃ bss, ls.mapM (fun l => l.mapM f) = .ok bss ∧ bs = bss.flatten := by
  have h := mapM_flatten_agree f ls
  constructor
  · intro hbs
    rw [hbs] at h
    exact h.exists_of_ok
  · rintro ⟨bss, hbss, rfl⟩
    obtain ⟨bs, hbs⟩ := h.exists_ok_iff.mpr ⟨bss, hbss⟩
    rw [hbs, hbss] at h
    obtain ⟨_, hok, hflatten⟩ := h.exists_of_ok
    cases hok
    rw [hbs, hflatten]

/-- A collecting run stops at one of its rows. -/
theorem exists_of_mapM_eq_error {f : α → Except ε β} {l : List α} {e : ε}
    (h : l.mapM f = .error e) : ∃ a ∈ l, f a = .error e := by
  induction l with
  | nil => cases h
  | cons a l ih =>
      rcases mapM_cons_eq_error_iff.mp h with ha | ⟨_, _, hl⟩
      · exact ⟨a, List.mem_cons_self, ha⟩
      · obtain ⟨a', ha', he⟩ := ih hl
        exact ⟨a', List.mem_cons_of_mem a ha', he⟩

/-- Collecting the results of calls that agree with runs. -/
theorem mapM_agree {σ : Type*} {R : σ → List β → Prop} {call : α' → Except ε σ}
    {run : α → Except ε (List β)} {cs : List α'} {ls : List α}
    (h : List.Forall₂ (fun c l => Agree R (call c) (run l)) cs ls) :
    Agree (List.Forall₂ R) (cs.mapM call) (ls.mapM run) := by
  induction h with
  | nil => exact Agree.done .nil
  | cons hc _ ih =>
      rw [List.mapM_cons, List.mapM_cons]
      exact hc.bind (fun _ _ hR => ih.bind (fun _ _ hRs => Agree.done (.cons hR hRs)))

/-- A loop that stops does so at one row, after a run over the rows before it. -/
theorem foldlM_eq_error_iff {σ : Type*} {step : σ → α → Except ε σ} {l : List α} {s : σ} {e : ε} :
    l.foldlM step s = .error e
      ↔ ∃ pre a post s', l = pre ++ a :: post ∧ pre.foldlM step s = .ok s'
          ∧ step s' a = .error e := by
  constructor
  · intro h
    induction l generalizing s with
    | nil => cases h
    | cons a l ih =>
        rw [List.foldlM_cons] at h
        cases ha : step s a with
        | error e' =>
            rw [ha] at h
            cases h
            exact ⟨[], a, l, s, rfl, rfl, ha⟩
        | ok s₁ =>
            rw [ha] at h
            obtain ⟨pre, a', post, s', rfl, hpre, ha'⟩ := ih h
            refine ⟨a :: pre, a', post, s', rfl, ?_, ha'⟩
            rw [List.foldlM_cons, ha]
            exact hpre
  · rintro ⟨pre, a, post, s', rfl, hpre, ha⟩
    rw [List.foldlM_append, hpre]
    show (List.foldlM step s' (a :: post)) = _
    rw [List.foldlM_cons, ha]
    rfl

/-- A row of a range, and the rows before it. -/
theorem exists_range_eq_append_cons_iff {n i : ℕ} {pre : List ℕ} :
    (∃ post, List.range n = pre ++ i :: post) ↔ i < n ∧ pre = List.range i := by
  constructor
  · rintro ⟨post, h⟩
    have hlen : n = pre.length + (post.length + 1) := by
      rw [← List.length_cons, ← List.length_append, ← h, List.length_range]
    have hi : (List.range n)[pre.length]? = some i := by rw [h]; simp
    rw [List.getElem?_range (by omega)] at hi
    injection hi with hi
    have hpre : (List.range n).take pre.length = pre := by rw [h, List.take_left']; rfl
    rw [List.take_range, Nat.min_eq_left (by omega), hi] at hpre
    exact ⟨by omega, hpre.symm⟩
  · rintro ⟨hi, rfl⟩
    refine ⟨(List.range n).drop (i + 1), ?_⟩
    conv_lhs => rw [← List.take_append_drop i (List.range n)]
    rw [List.take_range, Nat.min_eq_left (by omega), List.drop_eq_getElem_cons (by simpa using hi),
      List.getElem_range]

section Fill

variable {fits : List β → Prop} [DecidablePred fits] {full : ε} {f : α → Except ε β}

/-! ## Where an operator stops -/

/-- The rows of a mapped column. -/
theorem fill_map (g : α' → α) (l : List α') :
    fill fits full f (l.map g) = fill fits full (fun a => f (g a)) l := by
  rw [fill, fill, List.foldlM_map]
  rfl

section Closed

variable (hclosed : ∀ xs ys, fits (xs ++ ys) → fits xs) (hnil : fits [])

include hclosed hnil

/-- **The row an operator stops at.**  Every row before it has an entry and all of these
fit; the row itself has none, or one there is no room for. -/
theorem fill_eq_error_iff {l : List α} {e : ε} :
    fill fits full f l = .error e
      ↔ ∃ pre a post bs, l = pre ++ a :: post ∧ pre.mapM f = .ok bs ∧ fits bs
          ∧ (f a = .error e ∨ ∃ b, f a = .ok b ∧ ¬ fits (bs ++ [b]) ∧ e = full) := by
  have hstep : ∀ bs a, fillStep fits full f bs a = .error e
      ↔ f a = .error e ∨ ∃ b, f a = .ok b ∧ ¬ fits (bs ++ [b]) ∧ e = full := by
    intro bs a
    cases ha : f a with
    | error e' =>
        rw [fillStep_error ha]
        simp
    | ok b =>
        rw [fillStep_ok ha]
        by_cases hb : fits (bs ++ [b])
        · simp [hb]
        · simp [hb, eq_comm]
  rw [fill, foldlM_eq_error_iff]
  constructor
  · rintro ⟨pre, a, post, bs, rfl, hpre, ha⟩
    obtain ⟨hpre', hbs⟩ := (fill_eq_ok_iff hclosed hnil pre bs).mp hpre
    exact ⟨pre, a, post, bs, rfl, hpre', hbs, (hstep bs a).mp ha⟩
  · rintro ⟨pre, a, post, bs, rfl, hpre, hbs, ha⟩
    exact ⟨pre, a, post, bs, rfl, (fill_eq_ok_iff hclosed hnil pre bs).mpr ⟨hpre, hbs⟩,
      (hstep bs a).mpr ha⟩

/-- The row an operator stops at, by its number. -/
theorem fill_range_eq_error_iff {f : ℕ → Except ε β} {n : ℕ} {e : ε} :
    fill fits full f (List.range n) = .error e
      ↔ ∃ i < n, ∃ bs, (List.range i).mapM f = .ok bs ∧ fits bs
          ∧ (f i = .error e ∨ ∃ b, f i = .ok b ∧ ¬ fits (bs ++ [b]) ∧ e = full) := by
  rw [fill_eq_error_iff hclosed hnil]
  constructor
  · rintro ⟨pre, i, post, bs, hsplit, hstop⟩
    obtain ⟨hi, rfl⟩ := exists_range_eq_append_cons_iff.mp ⟨post, hsplit⟩
    exact ⟨i, hi, bs, hstop⟩
  · rintro ⟨i, hi, bs, hstop⟩
    obtain ⟨post, hsplit⟩ := exists_range_eq_append_cons_iff.mpr ⟨hi, rfl⟩
    exact ⟨List.range i, i, post, bs, hsplit, hstop⟩

/-- When every row has an entry, only the capacity is left to fail. -/
theorem fill_of_mapM_eq_ok {l : List α} {bs : List β} (h : l.mapM f = .ok bs) :
    fill fits full f l = if fits bs then .ok bs else .error full := by
  by_cases hbs : fits bs
  · rw [if_pos hbs]
    exact (fill_eq_ok_iff hclosed hnil l bs).mpr ⟨h, hbs⟩
  · rw [if_neg hbs]
    cases hfill : fill fits full f l with
    | ok cs =>
        obtain ⟨hcs, hfits⟩ := (fill_eq_ok_iff hclosed hnil l cs).mp hfill
        rw [h] at hcs
        cases hcs
        exact absurd hfits hbs
    | error e =>
        rcases fill_eq_error hfill with rfl | ⟨a, ha, he⟩
        · rfl
        · obtain ⟨b, hb⟩ := (exists_mapM_eq_ok_iff f l).mp ⟨bs, h⟩ a ha
          rw [hb] at he
          cases he

/-- An operator that stops on the first rows of a column stops on the column. -/
theorem fill_append_of_error {l₁ l₂ : List α} {e : ε} (h : fill fits full f l₁ = .error e) :
    fill fits full f (l₁ ++ l₂) = .error e := by
  obtain ⟨pre, a, post, bs, rfl, hstop⟩ := (fill_eq_error_iff hclosed hnil).mp h
  exact (fill_eq_error_iff hclosed hnil).mpr
    ⟨pre, a, post ++ l₂, bs, by rw [List.append_assoc, List.cons_append], hstop⟩

end Closed

end Fill

/-! ## Picking rows -/

/-- `l'` are the rows of `l` at the positions `sel`, in that order. -/
def Picks (sel : List ℕ) (l l' : List α) : Prop :=
  List.Forall₂ (fun i a => l[i]? = some a) sel l'

theorem filterMap_getElem?_range (l : List α) :
    (List.range l.length).filterMap (fun i => l[i]?) = l := by
  induction l with
  | nil => rfl
  | cons a l ih =>
      rw [List.length_cons, List.range_succ_eq_map,
        List.filterMap_cons_some (show (a :: l)[0]? = some a from rfl), List.filterMap_map]
      exact congrArg (List.cons a) ih

theorem Picks.eq_filterMap {sel : List ℕ} {l l' : List α} (h : Picks sel l l') :
    l' = sel.filterMap (fun i => l[i]?) := by
  induction h with
  | nil => rfl
  | cons hi _ ih => rw [List.filterMap_cons_some hi, ← ih]

/-- Rows picked at most once each are some of the rows, in some order. -/
theorem Picks.subperm {sel : List ℕ} {l l' : List α} (h : Picks sel l l') (hnodup : sel.Nodup) :
    l'.Subperm l := by
  have hrange : sel ⊆ List.range l.length := by
    intro i hi
    obtain ⟨j, hj, rfl⟩ := List.mem_iff_getElem.mp hi
    obtain ⟨hlen, hget⟩ := List.forall₂_iff_get.mp h
    rw [List.mem_range]
    exact (List.getElem?_eq_some_iff.mp (hget j hj (hlen ▸ hj))).1
  obtain ⟨sel', hperm, hsub⟩ := List.subperm_of_subset hnodup hrange
  refine ⟨sel'.filterMap (fun i => l[i]?), ?_, ?_⟩
  · rw [Picks.eq_filterMap h]
    exact hperm.filterMap _
  · have hmap := hsub.filterMap (fun i => l[i]?)
    rwa [filterMap_getElem?_range] at hmap

/-- The entries of picked rows are the picked entries. -/
theorem Picks.mapM_eq_ok {f : α → Except ε β} {sel : List ℕ} {l l' : List α} {bs : List β}
    (h : Picks sel l l') (hl : l.mapM f = .ok bs) :
    ∃ bs', l'.mapM f = .ok bs' ∧ Picks sel bs bs' := by
  induction h with
  | nil => exact ⟨[], rfl, .nil⟩
  | cons hi _ ih =>
      obtain ⟨bs', hbs', hpicks⟩ := ih
      obtain ⟨b, hb, hfb⟩ := getElem?_of_mapM_eq_ok hl hi
      exact ⟨b :: bs', (mapM_cons_eq_ok_iff f _ _ _).mpr ⟨b, bs', hfb, hbs', rfl⟩,
        .cons hb hpicks⟩

/-! ## Cutting a column into chunks -/

section Chunks

variable {fits : List β → Prop} [DecidablePred fits] {full : ε} {f : α → Except ε β}
  (hclosed : ∀ xs ys, fits (xs ++ ys) → fits xs) (hrest : ∀ xs ys, fits (xs ++ ys) → fits ys)
  (hnil : fits [])

include hclosed hrest hnil

/-- An error of a row behind `l₁` stops the rest of the column on its own. -/
theorem fill_rest_of_error {l₁ l₂ : List α} {bs₁ : List β} {e : ε}
    (h₁ : fill fits full f l₁ = .ok bs₁) (he : e ≠ full)
    (h : fill fits full f (l₁ ++ l₂) = .error e) : fill fits full f l₂ = .error e := by
  obtain ⟨hbs₁, -⟩ := (fill_eq_ok_iff hclosed hnil l₁ bs₁).mp h₁
  obtain ⟨pre, a, post, bs, hsplit, hpre, hfits, ha⟩ := (fill_eq_error_iff hclosed hnil).mp h
  have hfa : f a = .error e := by
    rcases ha with ha | ⟨b, -, -, hfull⟩
    · exact ha
    · exact absurd hfull he
  rcases List.append_eq_append_iff.mp hsplit with ⟨pre', rfl, htail⟩ | ⟨post', hl₁, htail⟩
  · obtain ⟨_, bs', -, hbs', rfl⟩ := mapM_append_eq_ok_iff.mp hpre
    exact (fill_eq_error_iff hclosed hnil).mpr
      ⟨pre', a, post, bs', htail, hbs', hrest _ _ hfits, .inl hfa⟩
  · -- every row of `l₁` has an entry, so the row at fault is the first one behind it
    cases post' with
    | nil =>
        rw [List.nil_append] at htail
        exact (fill_eq_error_iff hclosed hnil).mpr
          ⟨[], a, post, [], htail.symm, rfl, hnil, .inl hfa⟩
    | cons a' post' =>
        obtain ⟨rfl, -⟩ := List.cons.inj htail
        obtain ⟨b, hb⟩ := (exists_mapM_eq_ok_iff f l₁).mp ⟨bs₁, hbs₁⟩ a (by simp [hl₁])
        rw [hfa] at hb
        cases hb

/-- An operator that stops on the rest of a column stops on the column, at the same row or
full. -/
theorem fill_append_of_rest_error {l₁ l₂ : List α} {bs₁ : List β} {e : ε}
    (h₁ : fill fits full f l₁ = .ok bs₁) (h₂ : fill fits full f l₂ = .error e) :
    fill fits full f (l₁ ++ l₂) = .error e ∨ fill fits full f (l₁ ++ l₂) = .error full := by
  obtain ⟨hbs₁, -⟩ := (fill_eq_ok_iff hclosed hnil l₁ bs₁).mp h₁
  obtain ⟨pre, a, post, bs, rfl, hpre, -, ha⟩ := (fill_eq_error_iff hclosed hnil).mp h₂
  have hall : (l₁ ++ pre).mapM f = .ok (bs₁ ++ bs) :=
    mapM_append_eq_ok_iff.mpr ⟨bs₁, bs, hbs₁, hpre, rfl⟩
  rw [← List.append_assoc]
  by_cases hfits : fits (bs₁ ++ bs)
  · refine .inl ((fill_eq_error_iff hclosed hnil).mpr
      ⟨l₁ ++ pre, a, post, bs₁ ++ bs, rfl, hall, hfits, ?_⟩)
    rcases ha with ha | ⟨b, hb, hfull, rfl⟩
    · exact .inl ha
    · refine .inr ⟨b, hb, fun hmore => hfull ?_, rfl⟩
      rw [List.append_assoc] at hmore
      exact hrest _ _ hmore
  · refine .inr (fill_append_of_error hclosed hnil ?_)
    rw [fill_of_mapM_eq_ok hclosed hnil hall, if_neg hfits]

/-- An operator that ends well on a column ends well on each chunk, and the chunks' answers
make up the whole one. -/
theorem fill_flatten_ok {ls : List (List α)} {bs : List β}
    (h : fill fits full f ls.flatten = .ok bs) :
    ∃ bss, ls.mapM (fill fits full f) = .ok bss ∧ bs = bss.flatten := by
  obtain ⟨hbs, hfits⟩ := (fill_eq_ok_iff hclosed hnil _ _).mp h
  clear h
  induction ls generalizing bs with
  | nil =>
      cases hbs
      exact ⟨[], rfl, rfl⟩
  | cons l ls ih =>
      rw [List.flatten_cons, mapM_append_eq_ok_iff] at hbs
      obtain ⟨bs₁, bs₂, hbs₁, hbs₂, rfl⟩ := hbs
      obtain ⟨bss, hbss, rfl⟩ := ih hbs₂ (hrest _ _ hfits)
      have hchunk : fill fits full f l = .ok bs₁ :=
        (fill_eq_ok_iff hclosed hnil l bs₁).mpr ⟨hbs₁, hclosed _ _ hfits⟩
      exact ⟨bs₁ :: bss, (mapM_cons_eq_ok_iff _ l ls _).mpr ⟨bs₁, bss, hchunk, hbss, rfl⟩, rfl⟩

omit hrest in
/-- If it ends well on each chunk, only the capacity is left to fail on the column. -/
theorem fill_flatten_of_ok {ls : List (List α)} {bss : List (List β)}
    (h : ls.mapM (fill fits full f) = .ok bss) :
    fill fits full f ls.flatten
      = if fits bss.flatten then .ok bss.flatten else .error full := by
  refine fill_of_mapM_eq_ok hclosed hnil (mapM_flatten_eq_ok_iff.mpr ⟨bss, ?_, rfl⟩)
  rw [mapM_eq_ok_iff] at h ⊢
  exact h.imp (fun l bs hl => ((fill_eq_ok_iff hclosed hnil l bs).mp hl).1)

/-- An error of a row stops the first chunk that stops, as it stops the column. -/
theorem mapM_fill_of_flatten_error {ls : List (List α)} {e : ε} (he : e ≠ full)
    (h : fill fits full f ls.flatten = .error e) : ls.mapM (fill fits full f) = .error e := by
  induction ls with
  | nil => cases h
  | cons l ls ih =>
      rw [List.flatten_cons] at h
      rw [mapM_cons_eq_error_iff]
      cases hl : fill fits full f l with
      | error e' =>
          rw [fill_append_of_error hclosed hnil hl] at h
          cases h
          exact .inl rfl
      | ok bs₁ =>
          exact .inr ⟨bs₁, rfl, ih (fill_rest_of_error hclosed hrest hnil hl he h)⟩

/-- A chunk that stops, stops the column, at the same row or full. -/
theorem fill_flatten_of_error {ls : List (List α)} {e : ε}
    (h : ls.mapM (fill fits full f) = .error e) :
    fill fits full f ls.flatten = .error e ∨ fill fits full f ls.flatten = .error full := by
  induction ls with
  | nil => cases h
  | cons l ls ih =>
      rw [List.flatten_cons]
      rcases mapM_cons_eq_error_iff.mp h with hl | ⟨bs₁, hl, hls⟩
      · exact .inl (fill_append_of_error hclosed hnil hl)
      · rcases ih hls with hrun | hrun
        · exact fill_append_of_rest_error hclosed hrest hnil hl hrun
        · exact .inr ((fill_append_of_rest_error hclosed hrest hnil hl hrun).elim id id)

end Chunks

/-! ## Changing rows -/

/-- Rows with the same errors have entries together. -/
theorem exists_mapM_of_same_errors {f : α → Except ε β} {l l' : List α}
    (hsame : List.Forall₂ (fun a a' => ∀ e, f a = .error e ↔ f a' = .error e) l l')
    (h : ∃ bs, l.mapM f = .ok bs) : ∃ bs', l'.mapM f = .ok bs' := by
  rw [exists_mapM_eq_ok_iff] at h ⊢
  induction hsame with
  | nil => exact h
  | @cons a a' _ _ ha _ ih =>
      rw [List.forall_mem_cons] at h ⊢
      refine ⟨?_, ih h.2⟩
      obtain ⟨b, hb⟩ := h.1
      cases ha' : f a' with
      | ok b' => exact ⟨b', rfl⟩
      | error e =>
          rw [(ha e).mpr ha'] at hb
          cases hb

/-- **Rows changed without changing their errors.**  An error the operator stops with on one
column stops it on the other, unless that is already full. -/
theorem fill_error_of_same_errors {fits : List β → Prop} [DecidablePred fits] {full : ε}
    {f : α → Except ε β} (hclosed : ∀ xs ys, fits (xs ++ ys) → fits xs) (hnil : fits [])
    {l l' : List α}
    (hsame : List.Forall₂ (fun a a' => ∀ e, f a = .error e ↔ f a' = .error e) l l') {e : ε}
    (he : e ≠ full) (h : fill fits full f l = .error e) :
    fill fits full f l' = .error e ∨ fill fits full f l' = .error full := by
  obtain ⟨pre, a, post, bs, rfl, hpre, -, ha⟩ := (fill_eq_error_iff hclosed hnil).mp h
  have hfa : f a = .error e := by
    rcases ha with ha | ⟨b, -, -, hfull⟩
    · exact ha
    · exact absurd hfull he
  -- cut the other column at the same place
  have hpresame := List.forall₂_take_append l' pre (a :: post) hsame.flip
  have hrest := List.forall₂_drop_append l' pre (a :: post) hsame.flip
  obtain ⟨a', post', ha', -, hdrop⟩ := List.forall₂_cons_right_iff.mp hrest
  rw [← List.take_append_drop pre.length l', hdrop]
  obtain ⟨bs', hbs'⟩ := exists_mapM_of_same_errors hpresame.flip ⟨bs, hpre⟩
  by_cases hfits : fits bs'
  · exact .inl ((fill_eq_error_iff hclosed hnil).mpr
      ⟨_, a', post', bs', rfl, hbs', hfits, .inl ((ha' e).mp hfa)⟩)
  · refine .inr (fill_append_of_error hclosed hnil ?_)
    rw [fill_of_mapM_eq_ok hclosed hnil hbs', if_neg hfits]

end FallibleRuns
