/-
# Runs of fallible steps

Infrastructure for loops that stop at their first error.  A loop is
`List.foldlM` in `Except ε`; two facts are needed about such loops again and
again:

* `foldlM_agree` : if one step of two loops keeps their states related and stops
  with the same error, so does the whole run (a lock-step simulation);
* `fill` : a loop that computes one entry for each element and puts it in a
  buffer of limited capacity.  `fill_eq_mapM` removes the capacity when no
  prefix exceeds it, and `fill_eq_ok_iff` says exactly when the run ends well.
-/
import Mathlib.Data.List.Forall2

namespace FallibleRuns

variable {ε α β σ τ : Type*}

/-! ## Lock-step simulation -/

/-- Two fallible results agree: both stopped with the same error, or both ended,
in states related by `R`. -/
inductive Agree (R : σ → τ → Prop) : Except ε σ → Except ε τ → Prop
  | stopped (e : ε) : Agree R (.error e) (.error e)
  | done {s : σ} {t : τ} : R s t → Agree R (.ok s) (.ok t)

/-- Agreement is kept by what follows, on states that are related. -/
theorem Agree.bind {σ' τ' : Type*} {R : σ → τ → Prop} {R' : σ' → τ' → Prop} {x : Except ε σ}
    {y : Except ε τ} {f : σ → Except ε σ'} {g : τ → Except ε τ'} (h : Agree R x y)
    (hnext : ∀ s t, R s t → Agree R' (f s) (g t)) : Agree R' (x.bind f) (y.bind g) := by
  cases h with
  | stopped e => exact Agree.stopped e
  | done hR => exact hnext _ _ hR

/-- What a result that ended well agrees with. -/
theorem Agree.exists_of_ok {R : σ → τ → Prop} {s : σ} {y : Except ε τ}
    (h : Agree R (.ok s) y) : ∃ t, y = .ok t ∧ R s t := by
  cases h with
  | done hR => exact ⟨_, rfl, hR⟩

/-- What a result that stopped agrees with. -/
theorem Agree.eq_of_error {R : σ → τ → Prop} {e : ε} {y : Except ε τ}
    (h : Agree R (.error e) y) : y = .error e := by
  cases h with
  | stopped => rfl

/-- Results that agree end well together. -/
theorem Agree.exists_ok_iff {R : σ → τ → Prop} {x : Except ε σ} {y : Except ε τ}
    (h : Agree R x y) : (∃ s, x = .ok s) ↔ ∃ t, y = .ok t := by
  cases h with
  | stopped e => simp
  | done hR => simp

/-- **Lock-step simulation.**  If every step keeps two loops in agreement, then
so does the run over the whole list. -/
theorem foldlM_agree {R : σ → τ → Prop} {f : σ → α → Except ε σ} {g : τ → α → Except ε τ}
    (l : List α) (hstep : ∀ s t, ∀ a ∈ l, R s t → Agree R (f s a) (g t a))
    {s : σ} {t : τ} (h : R s t) : Agree R (l.foldlM f s) (l.foldlM g t) := by
  induction l generalizing s t with
  | nil => exact Agree.done h
  | cons a l ih =>
      rw [List.foldlM_cons, List.foldlM_cons]
      exact (hstep s t a List.mem_cons_self h).bind
        (fun _ _ h' => ih (fun s t a ha => hstep s t a (List.mem_cons_of_mem _ ha)) h')

/-! ## Collecting one result for each element -/

/-- A collecting run stops at its first element when that has no entry. -/
theorem mapM_cons_of_error {f : α → Except ε β} {a : α} {e : ε} (h : f a = .error e)
    (l : List α) : (a :: l).mapM f = .error e := by
  rw [List.mapM_cons, h]
  rfl

/-- A collecting run whose first element has the entry `b`. -/
theorem mapM_cons_of_ok_iff {f : α → Except ε β} {a : α} {b : β} (h : f a = .ok b)
    (l : List α) (cs : List β) :
    (a :: l).mapM f = .ok cs ↔ ∃ bs, l.mapM f = .ok bs ∧ cs = b :: bs := by
  rw [List.mapM_cons, h]
  cases l.mapM f with
  | error e =>
      constructor
      · intro h'
        cases h'
      · rintro ⟨bs, h', _⟩
        cases h'
  | ok bs =>
      constructor
      · intro h'
        cases h'
        exact ⟨bs, rfl, rfl⟩
      · rintro ⟨bs', hbs, rfl⟩
        cases hbs
        rfl

/-- A collecting run over `a :: l` ends well exactly when `a` gives an entry and
the run over `l` ends well. -/
theorem mapM_cons_eq_ok_iff (f : α → Except ε β) (a : α) (l : List α) (cs : List β) :
    (a :: l).mapM f = .ok cs ↔ ∃ b bs, f a = .ok b ∧ l.mapM f = .ok bs ∧ cs = b :: bs := by
  cases ha : f a with
  | error e =>
      rw [mapM_cons_of_error ha]
      simp
  | ok b =>
      rw [mapM_cons_of_ok_iff ha]
      simp

/-- A collecting run ends well exactly when each element gives its entry. -/
theorem mapM_eq_ok_iff (f : α → Except ε β) (l : List α) (bs : List β) :
    l.mapM f = .ok bs ↔ List.Forall₂ (fun a b => f a = .ok b) l bs := by
  induction l generalizing bs with
  | nil =>
      rw [List.mapM_nil, List.forall₂_nil_left_iff]
      constructor
      · intro h
        cases h
        rfl
      · rintro rfl
        rfl
  | cons a l ih =>
      rw [mapM_cons_eq_ok_iff, List.forall₂_cons_left_iff]
      constructor
      · rintro ⟨b, bs', hb, hbs', rfl⟩
        exact ⟨b, bs', hb, (ih bs').mp hbs', rfl⟩
      · rintro ⟨b, bs', hb, hbs', rfl⟩
        exact ⟨b, bs', hb, (ih bs').mpr hbs', rfl⟩

/-- A collecting run ends well exactly when every element does. -/
theorem exists_mapM_eq_ok_iff (f : α → Except ε β) (l : List α) :
    (∃ bs, l.mapM f = .ok bs) ↔ ∀ a ∈ l, ∃ b, f a = .ok b := by
  constructor
  · rintro ⟨bs, h⟩
    rw [mapM_eq_ok_iff] at h
    induction h with
    | nil => simp
    | cons hb _ ih =>
        intro a ha
        rcases List.mem_cons.mp ha with rfl | ha
        · exact ⟨_, hb⟩
        · exact ih a ha
  · intro h
    induction l with
    | nil => exact ⟨[], rfl⟩
    | cons a l ih =>
        obtain ⟨b, hb⟩ := h a List.mem_cons_self
        obtain ⟨bs, hbs⟩ := ih (fun a ha => h a (List.mem_cons_of_mem _ ha))
        refine ⟨b :: bs, ?_⟩
        rw [List.mapM_cons, hb, hbs]
        rfl

/-- The entry of one element of a collecting run that ended well. -/
theorem getElem?_of_mapM_eq_ok {f : α → Except ε β} {l : List α} {bs : List β}
    (h : l.mapM f = .ok bs) {i : ℕ} {a : α} (ha : l[i]? = some a) :
    ∃ b, bs[i]? = some b ∧ f a = .ok b := by
  rw [mapM_eq_ok_iff] at h
  induction h generalizing i with
  | nil => simp at ha
  | cons hb _ ih =>
      rcases i with _ | i
      · rw [List.getElem?_cons_zero, Option.some.injEq] at ha
        subst ha
        exact ⟨_, List.getElem?_cons_zero, hb⟩
      · rw [List.getElem?_cons_succ] at ha ⊢
        exact ih ha

/-- A collecting run that ended well collected, of a prefix, a prefix. -/
theorem mapM_eq_ok_of_append {f : α → Except ε β} {l₁ l₂ : List α} {bs : List β}
    (h : (l₁ ++ l₂).mapM f = .ok bs) : l₁.mapM f = .ok (bs.take l₁.length) := by
  rw [mapM_eq_ok_iff] at h ⊢
  have htake := List.forall₂_take l₁.length h
  rwa [List.take_left] at htake

/-! ## Filling a buffer of limited capacity -/

/-- One step of a fill: compute the entry of `a` and append it, or stop with
`full` when the buffer cannot hold it. -/
def fillStep (fits : List β → Prop) [DecidablePred fits] (full : ε) (f : α → Except ε β)
    (acc : List β) (a : α) : Except ε (List β) := do
  let b ← f a
  if fits (acc ++ [b]) then pure (acc ++ [b]) else throw full

/-- Fill an empty buffer with the entries of a list, left to right. -/
def fill (fits : List β → Prop) [DecidablePred fits] (full : ε) (f : α → Except ε β)
    (l : List α) : Except ε (List β) :=
  l.foldlM (fillStep fits full f) []

section Fill

variable {fits : List β → Prop} [DecidablePred fits] {full : ε} {f : α → Except ε β}

/-- The step on an element whose entry is an error. -/
theorem fillStep_error {acc : List β} {a : α} {e : ε} (h : f a = .error e) :
    fillStep fits full f acc a = .error e := by
  rw [fillStep, h]
  rfl

/-- The step on an element whose entry is `b`. -/
theorem fillStep_ok {acc : List β} {a : α} {b : β} (h : f a = .ok b) :
    fillStep fits full f acc a
      = if fits (acc ++ [b]) then .ok (acc ++ [b]) else .error full := by
  rw [fillStep, h]
  rfl

/-- A fill whose capacity no prefix exceeds is a plain collecting run. -/
theorem foldlM_fillStep_eq_mapM (l : List α) (acc : List β)
    (hfits : ∀ k cs, (l.take k).mapM f = .ok cs → fits (acc ++ cs)) :
    l.foldlM (fillStep fits full f) acc = (acc ++ ·) <$> l.mapM f := by
  induction l generalizing acc with
  | nil =>
      rw [List.foldlM_nil, List.mapM_nil, map_pure, List.append_nil]
  | cons a l ih =>
      rw [List.foldlM_cons, List.mapM_cons]
      cases ha : f a with
      | error e =>
          rw [fillStep_error ha]
          rfl
      | ok b =>
          -- prefixes of `l` are prefixes of `a :: l` with `b` in front
          have hone : fits (acc ++ [b]) :=
            hfits 1 [b] ((mapM_cons_of_ok_iff ha _ _).mpr ⟨[], rfl, rfl⟩)
          have hrest := ih (acc ++ [b]) (fun k cs hcs => by
            rw [List.append_assoc, List.singleton_append]
            exact hfits (k + 1) (b :: cs) ((mapM_cons_of_ok_iff ha _ _).mpr ⟨cs, hcs, rfl⟩))
          rw [fillStep_ok ha, if_pos hone]
          refine hrest.trans ?_
          cases l.mapM f with
          | error e => rfl
          | ok cs =>
              show Except.ok (acc ++ [b] ++ cs) = Except.ok (acc ++ (b :: cs))
              rw [List.append_assoc, List.singleton_append]

/-- **Enough capacity.**  If no prefix of the entries exceeds the capacity, a
fill is a plain collecting run. -/
theorem fill_eq_mapM (l : List α)
    (hfits : ∀ k cs, (l.take k).mapM f = .ok cs → fits cs) :
    fill fits full f l = l.mapM f := by
  rw [fill, foldlM_fillStep_eq_mapM l [] (by simpa using hfits)]
  cases l.mapM f <;> rfl

/-- The general form of `fill_eq_ok_iff`, from a buffer that already holds
`acc`. -/
theorem foldlM_fillStep_eq_ok_iff (hclosed : ∀ xs ys, fits (xs ++ ys) → fits xs)
    (l : List α) (acc bs : List β) (hacc : fits acc) :
    l.foldlM (fillStep fits full f) acc = .ok bs
      ↔ ∃ cs, l.mapM f = .ok cs ∧ bs = acc ++ cs ∧ fits bs := by
  induction l generalizing acc with
  | nil =>
      rw [List.foldlM_nil, List.mapM_nil]
      constructor
      · intro h
        cases h
        exact ⟨[], rfl, (List.append_nil _).symm, hacc⟩
      · rintro ⟨cs, hcs, rfl, _⟩
        cases hcs
        rw [List.append_nil]
        rfl
  | cons a l ih =>
      rw [List.foldlM_cons]
      cases ha : f a with
      | error e =>
          rw [fillStep_error ha, mapM_cons_of_error ha]
          constructor
          · intro h
            cases h
          · rintro ⟨cs, hcs, _⟩
            cases hcs
      | ok b =>
          -- the entries after `a` are collected behind `acc ++ [b]`
          have hsplit : (∃ cs, (a :: l).mapM f = .ok cs ∧ bs = acc ++ cs ∧ fits bs)
              ↔ ∃ cs, l.mapM f = .ok cs ∧ bs = acc ++ [b] ++ cs ∧ fits bs := by
            constructor
            · rintro ⟨_, hall, hbs, hf⟩
              obtain ⟨cs, hcs, rfl⟩ := (mapM_cons_of_ok_iff ha l _).mp hall
              exact ⟨cs, hcs, hbs.trans (List.append_cons acc b cs), hf⟩
            · rintro ⟨cs, hcs, hbs, hf⟩
              exact ⟨b :: cs, (mapM_cons_of_ok_iff ha l _).mpr ⟨cs, hcs, rfl⟩,
                hbs.trans (List.append_cons acc b cs).symm, hf⟩
          rw [hsplit, fillStep_ok ha]
          by_cases hb : fits (acc ++ [b])
          · rw [if_pos hb]
            exact ih (acc ++ [b]) hb
          · rw [if_neg hb]
            constructor
            · intro h
              cases h
            · rintro ⟨cs, _, rfl, hf⟩
              exact absurd (hclosed _ _ hf) hb

/-- **Exact capacity.**  For a capacity that prefixes inherit, a fill ends well
exactly when every entry does and all entries together fit. -/
theorem fill_eq_ok_iff (hclosed : ∀ xs ys, fits (xs ++ ys) → fits xs) (hnil : fits [])
    (l : List α) (bs : List β) :
    fill fits full f l = .ok bs ↔ l.mapM f = .ok bs ∧ fits bs := by
  rw [fill, foldlM_fillStep_eq_ok_iff hclosed l [] bs hnil]
  constructor
  · rintro ⟨cs, hcs, rfl, hf⟩
    exact ⟨hcs, hf⟩
  · rintro ⟨hcs, hf⟩
    exact ⟨bs, hcs, rfl, hf⟩

theorem foldlM_fillStep_eq_error (l : List α) (acc : List β) {e : ε}
    (h : l.foldlM (fillStep fits full f) acc = .error e) : e = full ∨ ∃ a ∈ l, f a = .error e := by
  induction l generalizing acc with
  | nil => cases h
  | cons a l ih =>
      rw [List.foldlM_cons] at h
      rcases ha : f a with e' | b
      · rw [fillStep_error ha] at h
        cases h
        exact Or.inr ⟨a, List.mem_cons_self, ha⟩
      · rw [fillStep_ok ha] at h
        by_cases hb : fits (acc ++ [b])
        · rw [if_pos hb] at h
          rcases ih _ h with he | ⟨a', ha', he⟩
          · exact Or.inl he
          · exact Or.inr ⟨a', List.mem_cons_of_mem a ha', he⟩
        · rw [if_neg hb] at h
          cases h
          exact Or.inl rfl

/-- A fill stops because it is full or because an element has no entry. -/
theorem fill_eq_error {l : List α} {e : ε} (h : fill fits full f l = .error e) :
    e = full ∨ ∃ a ∈ l, f a = .error e :=
  foldlM_fillStep_eq_error l [] h

/-- Filling a buffer with the elements themselves: they all fit, or it stops
full. -/
theorem foldlM_fillStep_ok (hclosed : ∀ xs ys, fits (xs ++ ys) → fits xs) (l acc : List β)
    (hacc : fits acc) :
    l.foldlM (fillStep fits full (fun b => .ok b)) acc
      = if fits (acc ++ l) then .ok (acc ++ l) else .error full := by
  induction l generalizing acc with
  | nil =>
      rw [List.append_nil, if_pos hacc]
      rfl
  | cons a l ih =>
      rw [List.foldlM_cons, fillStep_ok rfl, List.append_cons acc a l]
      by_cases ha : fits (acc ++ [a])
      · rw [if_pos ha]
        exact ih (acc ++ [a]) ha
      · rw [if_neg ha, if_neg (fun h => ha (hclosed _ _ h))]
        rfl

theorem fill_ok (hclosed : ∀ xs ys, fits (xs ++ ys) → fits xs) (hnil : fits []) (l : List β) :
    fill fits full (fun b => .ok b) l = if fits l then .ok l else .error full :=
  foldlM_fillStep_ok hclosed l [] hnil

end Fill

/-! ## Loops under an invariant -/

/-- **A loop that cannot stop.**  If, as long as what was processed fits, each step
ends well and carries the invariant on, so does the run. -/
theorem exists_foldlM_eq_ok {f : σ → α → Except ε σ} (inv : σ → List α → Prop)
    (fits : List α → Prop) (hclosed : ∀ xs ys, fits (xs ++ ys) → fits xs)
    (hstep : ∀ s pre a, inv s pre → fits (pre ++ [a]) →
      ∃ s', f s a = .ok s' ∧ inv s' (pre ++ [a]))
    (l pre : List α) {s : σ} (hinv : inv s pre) (hfits : fits (pre ++ l)) :
    ∃ s', l.foldlM f s = .ok s' ∧ inv s' (pre ++ l) := by
  induction l generalizing pre s with
  | nil => exact ⟨s, rfl, by rwa [List.append_nil]⟩
  | cons a l ih =>
      rw [List.append_cons pre a l] at hfits ⊢
      obtain ⟨s', hs', hinv'⟩ := hstep s pre a hinv (hclosed _ _ hfits)
      obtain ⟨s'', hs'', hinv''⟩ := ih (pre ++ [a]) hinv' hfits
      refine ⟨s'', ?_, hinv''⟩
      rw [List.foldlM_cons, hs']
      exact hs''

end FallibleRuns
