/-
# Keyword lists as JSON

`keywordsJson` (`keywords_json`, meta.rs) writes a comma-separated keyword list as a
JSON array of strings.  It escapes quotation marks and backslashes and copies every
other character, so the control characters U+0000 to U+001F, which JSON only admits
escaped, end up raw in the text.

* `keywordsJson_toList` : the loop writes the array of the keywords;
* `escape_escaping` : what the two escapes cover;
* `keywordsJson_encodes_iff` : when the text encodes the keywords.
-/
import Mathlib.Data.List.DropRight
import YaraWorker.JsonGrammar

open JsonGrammar

namespace YaraWorker

/-! ## `str` -/

/-- `char::is_whitespace`: the code points with the property White_Space. -/
def isWhitespace (c : Char) : Bool :=
  let n := c.toNat
  (0x09 ≤ n && n ≤ 0x0D) || n == 0x20 || n == 0x85 || n == 0xA0 || n == 0x1680
    || (0x2000 ≤ n && n ≤ 0x200A) || n == 0x2028 || n == 0x2029 || n == 0x202F
    || n == 0x205F || n == 0x3000

/-- `str::split(',')`. -/
def split (s : String) : List String := (s.toList.splitOn ',').map String.ofList

/-- `str::trim`. -/
def trim (s : String) : String :=
  String.ofList ((s.toList.dropWhile isWhitespace).rdropWhile isWhitespace)

/-! ## meta.rs -/

/-- The match on one character of a keyword. -/
def pushChar (out : String) (ch : Char) : String :=
  match ch with
  | '"' => out ++ "\\\""
  | '\\' => out ++ "\\\\"
  | _ => out.push ch

/-- One pass of the loop over the pieces; the state is `(out, first)`. -/
def pushKeyword : String × Bool → String → String × Bool
  | (out, first), piece =>
      let kw := trim piece
      if kw.isEmpty then (out, first)
      else
        let out := if !first then out.push ',' else out
        let out := out.push '"'
        let out := kw.toList.foldl pushChar out
        (out.push '"', false)

/-- `keywords_json`. -/
def keywordsJson (commaSeparated : String) : String :=
  ((split commaSeparated).foldl pushKeyword ("[", true)).1.push ']'

/-- The keywords of the list: its pieces between commas, trimmed, without the empty
ones. -/
def keywords (commaSeparated : String) : List String :=
  ((split commaSeparated).map trim).filter (fun kw => !kw.isEmpty)

/-! ## The text written -/

/-- What `pushChar` writes for a character. -/
def escape (ch : Char) : List Char :=
  if ch = '"' then ['\\', '"'] else if ch = '\\' then ['\\', '\\'] else [ch]

theorem pushChar_toList (out : String) (ch : Char) :
    (pushChar out ch).toList = out.toList ++ escape ch := by
  unfold pushChar escape
  split
  · rw [if_pos rfl, String.toList_append]
    rfl
  · rw [if_neg (by decide), if_pos rfl, String.toList_append]
    rfl
  · next hquote hback =>
    rw [if_neg hquote, if_neg hback, String.toList_push]

theorem foldl_pushChar_toList (cs : List Char) (out : String) :
    (cs.foldl pushChar out).toList = out.toList ++ cs.flatMap escape := by
  induction cs generalizing out with
  | nil => simp
  | cons c cs ih =>
      rw [List.foldl_cons, ih, pushChar_toList, List.append_assoc, List.flatMap_cons]

/-- One pass on a keyword: a comma unless it is the first, and the quoted keyword. -/
theorem pushKeyword_of_ne_empty (st : String × Bool) {piece : String}
    (h : ¬ (trim piece).isEmpty) :
    (pushKeyword st piece).1.toList
        = st.1.toList ++ (if st.2 then [] else [',']) ++ quoted escape (trim piece)
      ∧ (pushKeyword st piece).2 = false := by
  obtain ⟨out, first⟩ := st
  rw [pushKeyword, if_neg h]
  refine ⟨?_, rfl⟩
  rw [String.toList_push, foldl_pushChar_toList, String.toList_push]
  cases first <;> simp [quoted]

/-- What the rest of the loop adds to the text written so far: the first keyword has no
comma before it. -/
theorem foldl_pushKeyword_toList (pieces : List String) (st : String × Bool) :
    (pieces.foldl pushKeyword st).1.toList = st.1.toList ++
      if st.2 then listText escape ((pieces.map trim).filter (fun kw => !kw.isEmpty))
      else ((pieces.map trim).filter (fun kw => !kw.isEmpty)).flatMap
        (fun kw => ',' :: quoted escape kw) := by
  induction pieces generalizing st with
  | nil => simp [listText]
  | cons piece pieces ih =>
      rw [List.foldl_cons, List.map_cons, ih]
      by_cases hempty : (trim piece).isEmpty
      · rw [pushKeyword, if_pos hempty, List.filter_cons_of_neg (by simp [hempty])]
      · obtain ⟨htext, hfirst⟩ := pushKeyword_of_ne_empty st hempty
        rw [List.filter_cons_of_pos (by simp [hempty])]
        by_cases h : st.2 <;> simp [htext, hfirst, h, listText]

/-- **The loop.**  The text is the array of the keywords, each escaped character by
character. -/
theorem keywordsJson_toList (commaSeparated : String) :
    (keywordsJson commaSeparated).toList = arrayText escape (keywords commaSeparated) := by
  rw [keywordsJson, String.toList_push, foldl_pushKeyword_toList, if_pos rfl]
  rfl

example : keywordsJson "a, b" = "[\"a\",\"b\"]" := by decide

/-! ## What the escapes cover -/

/-- An escaped character is read back as itself, except for the control characters:
they are copied, and no text of the grammar holds them raw. -/
theorem escape_escaping : Escaping escape (fun c => 0x20 ≤ c.toNat) where
  read_iff := by
    intro c input rest p
    by_cases hquote : c = '"'
    · subst hquote
      rw [escape, if_pos rfl, List.cons_append, List.cons_append, List.nil_append,
        charText_escape_iff (c := '"') (by decide),
        and_iff_right (a := 0x20 ≤ '"'.toNat) (by decide)]
    · by_cases hback : c = '\\'
      · subst hback
        rw [escape, if_neg hquote, if_pos rfl, List.cons_append, List.cons_append,
          List.nil_append, charText_escape_iff (c := '\\') (by decide),
          and_iff_right (a := 0x20 ≤ '\\'.toNat) (by decide)]
      · rw [escape, if_neg hquote, if_neg hback, List.cons_append, List.nil_append,
          charText_unescaped_iff hback, and_iff_left hquote]
  ne_quote := by
    intro c input rest
    unfold escape
    split
    · simp
    · split
      · simp
      · next hquote _ => simp [hquote]

/-- No piece holds a control character, U+0000 to U+001F, once it is trimmed. -/
def NoControl (commaSeparated : String) : Prop :=
  ∀ piece ∈ split commaSeparated, ∀ c ∈ (trim piece).toList, 0x20 ≤ c.toNat

instance (commaSeparated : String) : Decidable (NoControl commaSeparated) :=
  decidable_of_iff ((split commaSeparated).all (fun piece =>
    (trim piece).toList.all (fun c => decide (0x20 ≤ c.toNat))) = true)
    (by simp only [NoControl, List.all_eq_true, decide_eq_true_iff])

/-- The pieces that are dropped hold no character at all. -/
theorem noControl_iff (commaSeparated : String) :
    NoControl commaSeparated ↔
      ∀ kw ∈ keywords commaSeparated, ∀ c ∈ kw.toList, 0x20 ≤ c.toNat := by
  constructor
  · intro h kw hkw
    obtain ⟨hmem, -⟩ := List.mem_filter.mp hkw
    obtain ⟨piece, hpiece, rfl⟩ := List.mem_map.mp hmem
    exact h piece hpiece
  · intro h piece hpiece c hc
    have hne : trim piece ≠ "" := by
      intro hempty
      rw [hempty] at hc
      cases hc
    have hkw : trim piece ∈ keywords commaSeparated :=
      List.mem_filter.mpr ⟨List.mem_map_of_mem hpiece, by simpa using hne⟩
    exact h (trim piece) hkw c hc

/-- What the text is read as. -/
theorem jsonText_keywordsJson_iff (commaSeparated : String) (v : Json) :
    JsonText (keywordsJson commaSeparated).toList v ↔
      NoControl commaSeparated ∧ v = .ofStrings (keywords commaSeparated) := by
  rw [keywordsJson_toList, escape_escaping.jsonText_arrayText_iff, noControl_iff]

/-- **When the text encodes the keywords.**  The keyword list is read back, whole and in
order, exactly when no trimmed piece holds a control character; and for the other lists
the text is no JSON at all. -/
theorem keywordsJson_encodes_iff (commaSeparated : String) :
    (Encodes (keywordsJson commaSeparated).toList (keywords commaSeparated)
        ↔ NoControl commaSeparated)
      ∧ ((∃ v, JsonText (keywordsJson commaSeparated).toList v) ↔ NoControl commaSeparated) := by
  constructor
  · rw [keywordsJson_toList, escape_escaping.encodes_iff, noControl_iff, and_iff_left rfl]
  · constructor
    · rintro ⟨v, hv⟩
      exact ((jsonText_keywordsJson_iff _ v).mp hv).1
    · intro h
      exact ⟨_, (jsonText_keywordsJson_iff _ _).mpr ⟨h, rfl⟩⟩

/-- A list with a quotation mark, a backslash, an empty piece and a trailing newline. -/
theorem keywordsJson_encodes_escaped :
    Encodes (keywordsJson " a, b\"c ,, \\d\n").toList ["a", "b\"c", "\\d"] := by
  have hkeywords : keywords " a, b\"c ,, \\d\n" = ["a", "b\"c", "\\d"] := by decide
  rw [← hkeywords]
  exact (keywordsJson_encodes_iff _).1.mpr (by decide)

/-- A newline inside a keyword is copied into the string, where JSON has no place
for it. -/
theorem keywordsJson_newline :
    (keywords "a\nb" = ["a\nb"] ∧ keywordsJson "a\nb" = "[\"a\nb\"]")
      ∧ (∀ v, ¬ JsonText (keywordsJson "a\nb").toList v)
      ∧ ¬ Encodes (keywordsJson "a\nb").toList (keywords "a\nb") := by
  have hnone : ∀ v, ¬ JsonText (keywordsJson "a\nb").toList v := by
    intro v hv
    exact absurd ((jsonText_keywordsJson_iff _ v).mp hv).1 (by decide)
  exact ⟨by decide, hnone, fun henc => hnone _ ((henc _).mpr rfl)⟩

end YaraWorker
