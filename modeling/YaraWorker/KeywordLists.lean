/-
# Comma-separated keyword lists

What `keywords` reads back from a list that is written out, and what the tags of an object
(`object_tags`, meta.rs) make of it.

* `keywords_append` : a comma joins two lists;
* `keywords_intercalate` : a written list of keywords is read back;
* `arrayText_injective` : the array of a list determines the list, raw control characters
  included;
* `objectTags_keywords`, `keywords_laws` : both together.
-/
import YaraWorker.Keywords

open JsonGrammar

namespace YaraWorker

/-! ## meta.rs -/

/-- `object_tags`. -/
def objectTags (title descriptionLlm descriptionMd keywords category : String) :
    List (String × String) :=
  [("vgi.title", title), ("vgi.doc_llm", descriptionLlm), ("vgi.doc_md", descriptionMd),
    ("vgi.keywords", keywordsJson keywords), ("vgi.category", category)]

/-! ## Keywords -/

/-- A keyword as it can stand in a list: not empty, without a comma, and trimmed. -/
structure IsKeyword (kw : String) : Prop where
  nonempty : kw ≠ ""
  comma : ',' ∉ kw.toList
  trimmed : trim kw = kw

theorem trim_toList (s : String) :
    (trim s).toList = (s.toList.dropWhile isWhitespace).rdropWhile isWhitespace := by
  rw [trim, String.toList_ofList]

/-- Trimming twice is trimming once. -/
theorem trim_trim (s : String) : trim (trim s) = trim s := by
  apply String.toList_injective
  rw [trim_toList, trim_toList]
  have hkept : ((s.toList.dropWhile isWhitespace).rdropWhile isWhitespace).dropWhile isWhitespace
      = (s.toList.dropWhile isWhitespace).rdropWhile isWhitespace := by
    rw [List.dropWhile_eq_self_iff]
    intro hlen
    -- what is left starts with the first character that is kept
    have hinit := List.rdropWhile_prefix isWhitespace (s.toList.dropWhile isWhitespace)
    rw [hinit.getElem hlen]
    exact List.dropWhile_eq_self_iff.mp (List.dropWhile_idempotent _ _) _
  rw [hkept, List.rdropWhile_idempotent]

theorem trim_of_space (s : String) : trim (" " ++ s) = trim s := by
  apply String.toList_injective
  rw [trim_toList, trim_toList, String.toList_append]
  rfl

theorem not_mem_of_mem_splitOn {a : Char} {l piece : List Char} (h : piece ∈ l.splitOn a) :
    a ∉ piece := by
  induction l generalizing piece with
  | nil => simp_all
  | cons c l ih =>
      rw [List.splitOn_cons_eq_if_modifyHead] at h
      by_cases hc : c = a
      · rw [if_pos (by simpa using hc), List.mem_cons] at h
        rcases h with rfl | h
        · simp
        · exact ih h
      · rw [if_neg (by simpa using hc)] at h
        obtain ⟨first, rest, hsplit⟩ := List.exists_cons_of_ne_nil (List.splitOn_ne_nil a l)
        rw [hsplit, List.modifyHead_cons, List.mem_cons] at h
        rcases h with rfl | h
        · rw [List.mem_cons, not_or]
          exact ⟨fun hac => hc hac.symm, ih (hsplit ▸ List.mem_cons_self)⟩
        · exact ih (hsplit ▸ List.mem_cons_of_mem first h)

/-- What `keywords` lists are keywords. -/
theorem isKeyword_of_mem_keywords {s kw : String} (h : kw ∈ keywords s) : IsKeyword kw := by
  obtain ⟨hmem, hne⟩ := List.mem_filter.mp h
  obtain ⟨piece, hpiece, rfl⟩ := List.mem_map.mp hmem
  refine ⟨by simpa using hne, ?_, trim_trim piece⟩
  rw [split, List.mem_map] at hpiece
  obtain ⟨cs, hcs, rfl⟩ := hpiece
  rw [trim_toList, String.toList_ofList]
  intro hcomma
  apply not_mem_of_mem_splitOn hcs
  exact (List.dropWhile_sublist _).mem ((List.rdropWhile_prefix _ _).mem hcomma)

/-! ## Written lists -/

/-- **A comma joins two lists.** -/
theorem keywords_append (s t : String) : keywords (s ++ "," ++ t) = keywords s ++ keywords t := by
  have hsplit : split (s ++ "," ++ t) = split s ++ split t := by
    unfold split
    rw [String.toList_append, String.toList_append, List.append_assoc, ← List.map_append]
    exact congrArg _ (List.splitOn_append_cons_self s.toList t.toList)
  rw [keywords, hsplit, List.map_append, List.filter_append]
  rfl

/-- A space before a list is trimmed with its first piece. -/
theorem keywords_of_space (s : String) : keywords (" " ++ s) = keywords s := by
  have hpieces : (split (" " ++ s)).map trim = (split s).map trim := by
    obtain ⟨first, rest, hsplit⟩ := List.exists_cons_of_ne_nil (List.splitOn_ne_nil ',' s.toList)
    have hspace : (' ' :: s.toList).splitOn ',' = (' ' :: first) :: rest := by
      rw [List.splitOn_cons_eq_if_modifyHead, if_neg (by decide), hsplit, List.modifyHead_cons]
    have htoList : (" " ++ s).toList = ' ' :: s.toList := by
      rw [String.toList_append]
      rfl
    have hfirst : String.ofList (' ' :: first) = " " ++ String.ofList first := by
      apply String.toList_injective
      simp [String.toList_append, String.toList_ofList]
    rw [split, split, htoList, hspace, hsplit]
    simp only [List.map_cons, hfirst, trim_of_space]
  rw [keywords, keywords, hpieces]

theorem keywords_of_isKeyword {kw : String} (h : IsKeyword kw) : keywords kw = [kw] := by
  have hsplit : split kw = [kw] := by
    rw [split, List.splitOn_eq_singleton h.comma]
    simp
  rw [keywords, hsplit, List.map_singleton, h.trimmed]
  simp [h.nonempty]

/-- **A written list is read back.** -/
theorem keywords_intercalate {list : List String} (h : ∀ kw ∈ list, IsKeyword kw) :
    keywords (", ".intercalate list) = list := by
  induction list with
  | nil =>
      rw [String.intercalate_nil]
      decide
  | cons kw list ih =>
      rw [List.forall_mem_cons] at h
      rcases list with _ | ⟨kw', list⟩
      · rw [String.intercalate_singleton, keywords_of_isKeyword h.1]
      · have hsep : kw ++ ", " ++ ", ".intercalate (kw' :: list)
            = kw ++ "," ++ (" " ++ ", ".intercalate (kw' :: list)) := by
          have hcomma : (", " : String) = "," ++ " " := by decide
          rw [hcomma]
          simp only [String.append_assoc]
        rw [String.intercalate_cons_cons, hsep, keywords_append, keywords_of_space,
          ih h.2, keywords_of_isKeyword h.1]
        rfl

/-! ## The text determines the list -/

theorem escape_append_inj {c c' : Char} {rest rest' : List Char}
    (h : escape c ++ rest = escape c' ++ rest') : c = c' ∧ rest = rest' := by
  unfold escape at h
  split_ifs at h <;> simp_all
  -- an escaped character against one that is copied
  · exact absurd h.1.symm ‹_›
  · exact absurd h.1.symm ‹_›

/-- A quoted keyword ends at its closing quotation mark. -/
theorem quoted_append_inj {s s' : String} {rest rest' : List Char}
    (h : quoted escape s ++ rest = quoted escape s' ++ rest') : s = s' ∧ rest = rest' := by
  have hchars : ∀ cs cs' : List Char,
      cs.flatMap escape ++ '"' :: rest = cs'.flatMap escape ++ '"' :: rest' →
        cs = cs' ∧ rest = rest' := by
    intro cs
    induction cs with
    | nil =>
        intro cs' hcs
        rcases cs' with _ | ⟨c', cs'⟩
        · exact ⟨rfl, (List.cons.inj hcs).2⟩
        · rw [List.flatMap_cons, List.append_assoc] at hcs
          exact absurd hcs.symm escape_escaping.ne_quote
    | cons c cs ih =>
        intro cs' hcs
        rcases cs' with _ | ⟨c', cs'⟩
        · rw [List.flatMap_cons, List.append_assoc] at hcs
          exact absurd hcs escape_escaping.ne_quote
        · rw [List.flatMap_cons, List.flatMap_cons, List.append_assoc, List.append_assoc] at hcs
          obtain ⟨rfl, htail⟩ := escape_append_inj hcs
          obtain ⟨rfl, hrest⟩ := ih cs' htail
          exact ⟨rfl, hrest⟩
  simp only [quoted, List.cons_append, List.append_assoc, List.nil_append, List.cons.injEq,
    true_and] at h
  obtain ⟨hs, hrest⟩ := hchars _ _ h
  exact ⟨String.toList_injective hs, hrest⟩

/-- **The array of a list determines the list.** -/
theorem arrayText_injective {list list' : List String}
    (h : arrayText escape list = arrayText escape list') : list = list' := by
  have hmore : ∀ list list' : List String,
      list.flatMap (fun t => ',' :: quoted escape t) ++ [']']
          = list'.flatMap (fun t => ',' :: quoted escape t) ++ [']'] → list = list' := by
    intro list
    induction list with
    | nil =>
        intro list' hlist
        rcases list' with _ | ⟨s', list'⟩
        · rfl
        · simp at hlist
    | cons s list ih =>
        intro list' hlist
        rcases list' with _ | ⟨s', list'⟩
        · simp at hlist
        · simp only [List.flatMap_cons, List.cons_append, List.append_assoc, List.cons.injEq,
            true_and] at hlist
          obtain ⟨rfl, hrest⟩ := quoted_append_inj hlist
          rw [ih list' hrest]
  rcases list with _ | ⟨s, list⟩ <;> rcases list' with _ | ⟨s', list'⟩
  · rfl
  · simp [arrayText, listText, quoted] at h
  · simp [arrayText, listText, quoted] at h
  · simp only [arrayText, listText, List.cons_append, List.append_assoc, List.cons.injEq,
      true_and] at h
    obtain ⟨rfl, hrest⟩ := quoted_append_inj h
    rw [hmore list list' hrest]

/-! ## The laws of the lists -/

/-- **The laws of the lists.**  What is listed are keywords; a comma joins two lists; a list
written out anew gives the same text; and two lists give the same text exactly when they have
the same keywords in the same order, also where the text is no JSON. -/
theorem keywords_laws (s t : String) :
    (∀ kw ∈ keywords s, IsKeyword kw)
    ∧ keywords (s ++ "," ++ t) = keywords s ++ keywords t
    ∧ keywordsJson (", ".intercalate (keywords s)) = keywordsJson s
    ∧ (keywordsJson s = keywordsJson t ↔ keywords s = keywords t) := by
  have htext : ∀ s t : String, keywords s = keywords t → keywordsJson s = keywordsJson t := by
    intro s t h
    apply String.toList_injective
    rw [keywordsJson_toList, keywordsJson_toList, h]
  refine ⟨fun kw => isKeyword_of_mem_keywords, keywords_append s t, ?_, ?_, htext s t⟩
  · exact htext _ _ (keywords_intercalate (fun kw => isKeyword_of_mem_keywords))
  · intro h
    apply arrayText_injective
    rw [← keywordsJson_toList, ← keywordsJson_toList, h]

/-- **The keyword tag of an object.**  A list of keywords without control characters, written
with commas for `object_tags`, is what the tag `vgi.keywords` encodes, and nothing else. -/
theorem objectTags_keywords (title descriptionLlm descriptionMd category : String)
    (list : List String) (h : ∀ kw ∈ list, IsKeyword kw ∧ ∀ c ∈ kw.toList, 0x20 ≤ c.toNat) :
    ∃ text, (objectTags title descriptionLlm descriptionMd (", ".intercalate list) category).lookup
        "vgi.keywords" = some text
      ∧ ∀ list', Encodes text.toList list' ↔ list' = list := by
  refine ⟨keywordsJson (", ".intercalate list), rfl, ?_⟩
  intro list'
  rw [keywordsJson_toList, keywords_intercalate (fun kw hkw => (h kw hkw).1),
    escape_escaping.encodes_iff]
  constructor
  · rintro ⟨-, hlist⟩
    exact hlist
  · rintro rfl
    exact ⟨fun kw hkw => (h kw hkw).2, rfl⟩

theorem objectTags_keywords_escaped :
    ∃ text, (objectTags "" "" "" (", ".intercalate ["first match", "a\"b"]) "").lookup
        "vgi.keywords" = some text
      ∧ ∀ list', Encodes text.toList list' ↔ list' = ["first match", "a\"b"] := by
  apply objectTags_keywords
  intro kw hkw
  simp only [List.mem_cons, List.not_mem_nil, or_false] at hkw
  rcases hkw with rfl | rfl
  · exact ⟨⟨by decide, by decide, by decide⟩, by simp⟩
  · exact ⟨⟨by decide, by decide, by decide⟩, by simp⟩

end YaraWorker
