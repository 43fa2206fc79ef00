/-
# The JSON grammar

The grammar of JSON texts (RFC 8259) as relations on lists of characters.
`P input v rest` says that production `P` derives `v` from the start of `input` and
leaves `rest`; the text of a production is what lies between the two.

* `Ws`, `Structural`, `CharText`, `StringText`, `NumberText`, `Value` : the
  productions; `JsonText` is a whole text;
* `codePoints` : the characters a string stands for, surrogate pairs joined;
* `Encodes` : the text is an array of the given strings and nothing else.
-/
import Mathlib.Data.List.Basic

namespace JsonGrammar

/-! ## Values -/

/-- JSON values.  A string is its sequence of code points, a number its literal. -/
inductive Json
  | null
  | bool (b : Bool)
  | number (literal : List Char)
  | string (codePoints : List ℕ)
  | array (values : List Json)
  | object (members : List (List ℕ × Json))

/-- An array of the given strings. -/
def Json.ofStrings (list : List String) : Json :=
  .array (list.map (fun s => .string (s.toList.map Char.toNat)))

/-! ## Whitespace and structural characters -/

/-- `ws = *( %x20 / %x09 / %x0A / %x0D )`. -/
def IsWs (c : Char) : Prop := c = ' ' ∨ c = '\t' ∨ c = '\n' ∨ c = '\r'

instance (c : Char) : Decidable (IsWs c) :=
  inferInstanceAs (Decidable (c = ' ' ∨ c = '\t' ∨ c = '\n' ∨ c = '\r'))

inductive Ws : List Char → List Char → Prop
  | nil {rest : List Char} : Ws rest rest
  | cons {c : Char} {input rest : List Char} : IsWs c → Ws input rest → Ws (c :: input) rest

/-- A structural character, `ws c ws`. -/
inductive Structural (c : Char) : List Char → List Char → Prop
  | mk {input mid rest : List Char} : Ws input (c :: mid) → Ws mid rest → Structural c input rest

/-! ## Strings -/

/-- What one `char` stands for: a code point, or a 16-bit unit written in hex. -/
inductive Piece
  | char (c : Char)
  | unit (u : ℕ)

/-- The two-character escapes. -/
def escapes : List (Char × Char) :=
  [('"', '"'), ('\\', '\\'), ('/', '/'), ('b', Char.ofNat 0x08), ('f', Char.ofNat 0x0C),
    ('n', '\n'), ('r', '\r'), ('t', '\t')]

/-- `HEXDIG`, of either case. -/
def hexDigit (c : Char) : Option ℕ :=
  if '0' ≤ c ∧ c ≤ '9' then some (c.toNat - '0'.toNat)
  else if 'a' ≤ c ∧ c ≤ 'f' then some (c.toNat - 'a'.toNat + 10)
  else if 'A' ≤ c ∧ c ≤ 'F' then some (c.toNat - 'A'.toNat + 10)
  else none

/-- `char = unescaped / escape ...`, with
`unescaped = %x20-21 / %x23-5B / %x5D-10FFFF`. -/
inductive CharText : List Char → Piece → List Char → Prop
  | unescaped {c : Char} {rest : List Char} :
      0x20 ≤ c.toNat → c ≠ '"' → c ≠ '\\' → CharText (c :: rest) (.char c) rest
  | escape {e c : Char} {rest : List Char} :
      (e, c) ∈ escapes → CharText ('\\' :: e :: rest) (.char c) rest
  | unicode {c₀ c₁ c₂ c₃ : Char} {d₀ d₁ d₂ d₃ : ℕ} {rest : List Char} :
      hexDigit c₀ = some d₀ → hexDigit c₁ = some d₁ → hexDigit c₂ = some d₂ →
      hexDigit c₃ = some d₃ →
      CharText ('\\' :: 'u' :: c₀ :: c₁ :: c₂ :: c₃ :: rest)
        (.unit (((d₀ * 16 + d₁) * 16 + d₂) * 16 + d₃)) rest

/-- `*char`. -/
inductive Chars : List Char → List Piece → List Char → Prop
  | nil {rest : List Char} : Chars rest [] rest
  | cons {input mid rest : List Char} {p : Piece} {ps : List Piece} :
      CharText input p mid → Chars mid ps rest → Chars input (p :: ps) rest

/-- The code points of a string: a high surrogate and the low one behind it are one
character beyond the basic plane. -/
def codePoints : List Piece → List ℕ
  | [] => []
  | .char c :: ps => c.toNat :: codePoints ps
  | .unit u :: .unit v :: ps =>
      if 0xD800 ≤ u ∧ u < 0xDC00 ∧ 0xDC00 ≤ v ∧ v < 0xE000 then
        (0x10000 + (u - 0xD800) * 0x400 + (v - 0xDC00)) :: codePoints ps
      else u :: codePoints (.unit v :: ps)
  | .unit u :: ps => u :: codePoints ps

/-- `string = quotation-mark *char quotation-mark`. -/
inductive StringText : List Char → List ℕ → List Char → Prop
  | mk {body rest : List Char} {ps : List Piece} :
      Chars body ps ('"' :: rest) → StringText ('"' :: body) (codePoints ps) rest

/-! ## Numbers -/

def IsDigit (c : Char) : Prop := '0' ≤ c ∧ c ≤ '9'

instance (c : Char) : Decidable (IsDigit c) :=
  inferInstanceAs (Decidable ('0' ≤ c ∧ c ≤ '9'))

/-- `1*DIGIT`. -/
def Digits (ds : List Char) : Prop := ds ≠ [] ∧ ∀ c ∈ ds, IsDigit c

/-- `int = zero / ( digit1-9 *DIGIT )`. -/
def IntPart (ds : List Char) : Prop := ds = ['0'] ∨ (Digits ds ∧ ds.head? ≠ some '0')

/-- `frac = decimal-point 1*DIGIT`, or nothing. -/
def FracPart (cs : List Char) : Prop := cs = [] ∨ ∃ ds, cs = '.' :: ds ∧ Digits ds

/-- `exp = e [ minus / plus ] 1*DIGIT`, or nothing. -/
def ExpPart (cs : List Char) : Prop :=
  cs = [] ∨ ∃ e sign ds, cs = e :: sign ++ ds ∧ (e = 'e' ∨ e = 'E')
    ∧ (sign = [] ∨ sign = ['-'] ∨ sign = ['+']) ∧ Digits ds

/-- `number = [ minus ] int [ frac ] [ exp ]`. -/
def NumberText (literal : List Char) : Prop :=
  ∃ minus int frac exp, literal = minus ++ int ++ frac ++ exp
    ∧ (minus = [] ∨ minus = ['-']) ∧ IntPart int ∧ FracPart frac ∧ ExpPart exp

/-! ## Values and texts -/

mutual

/-- `value = false / null / true / object / array / number / string`. -/
inductive Value : List Char → Json → List Char → Prop
  | null {rest : List Char} : Value ('n' :: 'u' :: 'l' :: 'l' :: rest) .null rest
  | true {rest : List Char} : Value ('t' :: 'r' :: 'u' :: 'e' :: rest) (.bool true) rest
  | false {rest : List Char} : Value ('f' :: 'a' :: 'l' :: 's' :: 'e' :: rest) (.bool false) rest
  | number {literal rest : List Char} :
      NumberText literal → Value (literal ++ rest) (.number literal) rest
  | string {input rest : List Char} {s : List ℕ} :
      StringText input s rest → Value input (.string s) rest
  | emptyArray {input a rest : List Char} :
      Structural '[' input a → Structural ']' a rest → Value input (.array []) rest
  | array {input a b rest : List Char} {vs : List Json} :
      Structural '[' input a → Elements a vs b → Structural ']' b rest →
      Value input (.array vs) rest
  | emptyObject {input a rest : List Char} :
      Structural '\x7b' input a → Structural '\x7d' a rest → Value input (.object []) rest
  | object {input a b rest : List Char} {ms : List (List ℕ × Json)} :
      Structural '\x7b' input a → Members a ms b → Structural '\x7d' b rest →
      Value input (.object ms) rest

/-- `value *( value-separator value )`. -/
inductive Elements : List Char → List Json → List Char → Prop
  | one {input rest : List Char} {v : Json} : Value input v rest → Elements input [v] rest
  | more {input a b rest : List Char} {v : Json} {vs : List Json} :
      Value input v a → Structural ',' a b → Elements b vs rest → Elements input (v :: vs) rest

/-- `member *( value-separator member )`, with `member = string name-separator value`. -/
inductive Members : List Char → List (List ℕ × Json) → List Char → Prop
  | one {input a b rest : List Char} {k : List ℕ} {v : Json} :
      StringText input k a → Structural ':' a b → Value b v rest → Members input [(k, v)] rest
  | more {input a b c d rest : List Char} {k : List ℕ} {v : Json} {ms : List (List ℕ × Json)} :
      StringText input k a → Structural ':' a b → Value b v c → Structural ',' c d →
      Members d ms rest → Members input ((k, v) :: ms) rest

end

/-- `JSON-text = ws value ws`. -/
def JsonText (text : List Char) (v : Json) : Prop :=
  ∃ a b, Ws text a ∧ Value a v b ∧ Ws b []

/-- The text is read as an array of these strings, and as nothing else. -/
def Encodes (text : List Char) (list : List String) : Prop :=
  ∀ v, JsonText text v ↔ v = .ofStrings list

theorem Json.ofStrings_injective {list list' : List String}
    (h : Json.ofStrings list = Json.ofStrings list') : list = list' := by
  have hchars : Function.Injective (List.map Char.toNat) :=
    List.map_injective_iff.mpr (fun c d hcd => Char.toNat_inj.mp hcd)
  have hstring : Function.Injective (fun s : String => Json.string (s.toList.map Char.toNat)) := by
    intro s t hst
    exact String.toList_inj.mp (hchars (Json.string.inj hst))
  exact List.map_injective_iff.mpr hstring (Json.array.inj h)

/-! ## Reading the next character -/

/-- Whitespace ends before a character that is none. -/
theorem ws_cons_iff {c : Char} {input rest : List Char} (hc : ¬ IsWs c) :
    Ws (c :: input) rest ↔ rest = c :: input := by
  constructor
  · intro h
    cases h with
    | nil => rfl
    | cons hws _ => exact absurd hws hc
  · rintro rfl
    exact .nil

theorem ws_nil_iff {rest : List Char} : Ws [] rest ↔ rest = [] := by
  constructor
  · intro h
    cases h
    rfl
  · rintro rfl
    exact .nil

/-- A structural character where the text goes on with a character that is no
whitespace. -/
theorem structural_cons_iff {c d : Char} {input rest : List Char} (hd : ¬ IsWs d) :
    Structural c (d :: input) rest ↔ d = c ∧ Ws input rest := by
  constructor
  · rintro ⟨hbefore, hafter⟩
    have heq := (ws_cons_iff hd).mp hbefore
    injection heq with hc hmid
    exact ⟨hc.symm, hmid ▸ hafter⟩
  · rintro ⟨rfl, hafter⟩
    exact .mk .nil hafter

/-- A character that stands for itself. -/
theorem charText_unescaped_iff {c : Char} {input rest : List Char} {p : Piece}
    (hc : c ≠ '\\') :
    CharText (c :: input) p rest ↔ (0x20 ≤ c.toNat ∧ c ≠ '"') ∧ p = .char c ∧ rest = input := by
  constructor
  · intro h
    cases h with
    | unescaped hspace hquote _ => exact ⟨⟨hspace, hquote⟩, rfl, rfl⟩
    | escape _ => exact absurd rfl hc
    | unicode _ _ _ _ => exact absurd rfl hc
  · rintro ⟨⟨hspace, hquote⟩, rfl, rfl⟩
    exact .unescaped hspace hquote hc

/-- A two-character escape stands for one character, and `u` is none of them. -/
theorem charText_escape_iff {e c : Char} {input rest : List Char} {p : Piece}
    (h : (e, c) ∈ escapes) :
    CharText ('\\' :: e :: input) p rest ↔ p = .char c ∧ rest = input := by
  have hunique : ∀ x ∈ escapes, ∀ y ∈ escapes, x.1 = y.1 → x.2 = y.2 := by decide
  have hu : ∀ x ∈ escapes, x.1 ≠ 'u' := by decide
  constructor
  · intro hread
    cases hread with
    | unescaped _ _ hback => exact absurd rfl hback
    | escape h' => exact ⟨congrArg Piece.char (hunique _ h' _ h rfl), rfl⟩
    | unicode _ _ _ _ => exact absurd rfl (hu _ h)
  · rintro ⟨rfl, rfl⟩
    exact .escape h

/-- A number starts with a digit or a minus sign. -/
theorem NumberText.head {literal : List Char} (h : NumberText literal) :
    ∃ c cs, literal = c :: cs ∧ (c = '-' ∨ IsDigit c) := by
  obtain ⟨minus, int, frac, exp, rfl, hminus, hint, -, -⟩ := h
  rcases hminus with rfl | rfl
  · have hdigit : ∃ d ds, int = d :: ds ∧ IsDigit d := by
      rcases hint with rfl | ⟨⟨hne, hall⟩, -⟩
      · exact ⟨'0', [], rfl, by decide⟩
      · obtain ⟨d, ds, rfl⟩ := List.exists_cons_of_ne_nil hne
        exact ⟨d, ds, rfl, hall d (List.mem_cons_self ..)⟩
    obtain ⟨d, ds, rfl, hd⟩ := hdigit
    exact ⟨d, ds ++ frac ++ exp, rfl, .inr hd⟩
  · exact ⟨'-', int ++ frac ++ exp, rfl, .inl rfl⟩

/-- At a quotation mark a value is a string, at a bracket it is an array, and the bracket
is an opening one. -/
theorem Value.string_or_array {c : Char} {body rest : List Char} {v : Json}
    (h : Value (c :: body) v rest) (hc : c = '"' ∨ c = '[' ∨ c = ']') :
    (c = '"' ∧ ∃ s, v = .string s ∧ StringText (c :: body) s rest) ∨
      (c = '[' ∧ ((∃ a, Ws body a ∧ v = .array [] ∧ Structural ']' a rest) ∨
        ∃ a b vs, Ws body a ∧ v = .array vs ∧ Elements a vs b ∧ Structural ']' b rest)) := by
  have hws : ¬ IsWs c := by
    rcases hc with rfl | rfl | rfl <;> decide
  have hnumber : ¬ (c = '-' ∨ IsDigit c) := by
    rcases hc with rfl | rfl | rfl <;> decide
  have hlit : c ≠ 'n' ∧ c ≠ 't' ∧ c ≠ 'f' ∧ c ≠ '\x7b' := by
    rcases hc with rfl | rfl | rfl <;> decide
  generalize hin : c :: body = input at h
  cases h with
  | null => exact absurd (List.cons.inj hin).1 hlit.1
  | true => exact absurd (List.cons.inj hin).1 hlit.2.1
  | false => exact absurd (List.cons.inj hin).1 hlit.2.2.1
  | number hn =>
      obtain ⟨d, ds, rfl, hd⟩ := hn.head
      obtain rfl := (List.cons.inj hin).1
      exact absurd hd hnumber
  | string hs =>
      subst hin
      have hquote : c = '"' := by
        cases hs
        rfl
      exact .inl ⟨hquote, _, rfl, hs⟩
  | emptyArray ha hb =>
      subst hin
      obtain ⟨hopen, hbody⟩ := (structural_cons_iff hws).mp ha
      exact .inr ⟨hopen, .inl ⟨_, hbody, rfl, hb⟩⟩
  | array ha hvs hb =>
      subst hin
      obtain ⟨hopen, hbody⟩ := (structural_cons_iff hws).mp ha
      exact .inr ⟨hopen, .inr ⟨_, _, _, hbody, rfl, hvs, hb⟩⟩
  | emptyObject ha _ =>
      subst hin
      exact absurd ((structural_cons_iff hws).mp ha).1 hlit.2.2.2
  | object ha _ _ =>
      subst hin
      exact absurd ((structural_cons_iff hws).mp ha).1 hlit.2.2.2

/-- A quotation mark starts a string and nothing else. -/
theorem value_quote_iff {body rest : List Char} {v : Json} :
    Value ('"' :: body) v rest ↔ ∃ s, v = .string s ∧ StringText ('"' :: body) s rest := by
  constructor
  · intro h
    rcases h.string_or_array (.inl rfl) with ⟨-, hs⟩ | ⟨hopen, -⟩
    · exact hs
    · exact absurd hopen (by decide)
  · rintro ⟨s, rfl, hs⟩
    exact .string hs

/-- An opening bracket starts an array and nothing else. -/
theorem value_bracket_iff {body rest : List Char} {v : Json} :
    Value ('[' :: body) v rest ↔
      (∃ a, Ws body a ∧ v = .array [] ∧ Structural ']' a rest) ∨
        ∃ a b vs, Ws body a ∧ v = .array vs ∧ Elements a vs b ∧ Structural ']' b rest := by
  constructor
  · intro h
    rcases h.string_or_array (.inr (.inl rfl)) with ⟨hquote, -⟩ | ⟨-, ha⟩
    · exact absurd hquote (by decide)
    · exact ha
  · rintro (⟨a, ha, rfl, hb⟩ | ⟨a, b, vs, ha, rfl, hvs, hb⟩)
    · exact .emptyArray (.mk .nil ha) hb
    · exact .array (.mk .nil ha) hvs hb

/-- No value starts with a closing bracket. -/
theorem Value.ne_close {body rest : List Char} {v : Json} : ¬ Value (']' :: body) v rest := by
  intro h
  rcases h.string_or_array (.inr (.inr rfl)) with ⟨hquote, -⟩ | ⟨hopen, -⟩
  · exact absurd hquote (by decide)
  · exact absurd hopen (by decide)

/-- One or more elements: the first, and then the end or a comma and more. -/
theorem elements_iff {input rest : List Char} {vs : List Json} :
    Elements input vs rest ↔ ∃ v a, Value input v a ∧
      ((vs = [v] ∧ rest = a) ∨
        ∃ b vs', Structural ',' a b ∧ Elements b vs' rest ∧ vs = v :: vs') := by
  constructor
  · intro h
    cases h with
    | one hv => exact ⟨_, _, hv, .inl ⟨rfl, rfl⟩⟩
    | more hv hcomma hvs => exact ⟨_, _, hv, .inr ⟨_, _, hcomma, hvs, rfl⟩⟩
  · rintro ⟨v, a, hv, ⟨rfl, rfl⟩ | ⟨b, vs', hcomma, hvs, rfl⟩⟩
    · exact .one hv
    · exact .more hv hcomma hvs

/-! ## Writing an array of strings -/

/-- An escaping: `esc c` is read back as `c` alone, exactly when `ok c`; otherwise it
is not read at all. -/
structure Escaping (esc : Char → List Char) (ok : Char → Prop) : Prop where
  read_iff {c : Char} {input rest : List Char} {p : Piece} :
    CharText (esc c ++ input) p rest ↔ ok c ∧ p = .char c ∧ rest = input
  ne_quote {c : Char} {input rest : List Char} : esc c ++ input ≠ '"' :: rest

/-- A string between quotation marks, every character escaped. -/
def quoted (esc : Char → List Char) (s : String) : List Char :=
  '"' :: s.toList.flatMap esc ++ ['"']

/-- Quoted strings, separated by commas. -/
def listText (esc : Char → List Char) : List String → List Char
  | [] => []
  | s :: list => quoted esc s ++ list.flatMap (fun t => ',' :: quoted esc t)

/-- The array of the quoted strings. -/
def arrayText (esc : Char → List Char) (list : List String) : List Char :=
  '[' :: listText esc list ++ [']']

theorem codePoints_chars (cs : List Char) :
    codePoints (cs.map .char) = cs.map Char.toNat := by
  induction cs with
  | nil => rfl
  | cons c cs ih => rw [List.map_cons, codePoints, ih, List.map_cons]

section Writer

variable {esc : Char → List Char} {ok : Char → Prop}

/-- Escaped characters before a closing quotation mark are read back one by one. -/
theorem Escaping.chars_iff (h : Escaping esc ok) {cs input rest : List Char}
    {ps : List Piece} :
    Chars (cs.flatMap esc ++ '"' :: input) ps ('"' :: rest) ↔
      (∀ c ∈ cs, ok c) ∧ ps = cs.map .char ∧ rest = input := by
  induction cs generalizing ps with
  | nil =>
      constructor
      · intro hread
        cases hread with
        | nil => exact ⟨by simp, rfl, rfl⟩
        | cons hc _ => exact absurd rfl ((charText_unescaped_iff (by decide)).mp hc).1.2
      · rintro ⟨-, rfl, rfl⟩
        exact .nil
  | cons c cs ih =>
      rw [List.flatMap_cons, List.append_assoc, List.forall_mem_cons, List.map_cons]
      constructor
      · intro hread
        generalize hin : esc c ++ (cs.flatMap esc ++ '"' :: input) = text at hread
        cases hread with
        | nil => exact absurd hin h.ne_quote
        | cons hc hcs =>
            subst hin
            obtain ⟨hok, rfl, rfl⟩ := h.read_iff.mp hc
            obtain ⟨hall, rfl, hrest⟩ := ih.mp hcs
            exact ⟨⟨hok, hall⟩, rfl, hrest⟩
      · rintro ⟨⟨hok, hall⟩, rfl, hrest⟩
        exact .cons (h.read_iff.mpr ⟨hok, rfl, rfl⟩) (ih.mpr ⟨hall, rfl, hrest⟩)

/-- A quoted string is read back whole, and as nothing else. -/
theorem Escaping.value_quoted_iff (h : Escaping esc ok) {s : String} {input rest : List Char}
    {v : Json} :
    Value (quoted esc s ++ input) v rest ↔
      (∀ c ∈ s.toList, ok c) ∧ v = .string (s.toList.map Char.toNat) ∧ rest = input := by
  have htext : quoted esc s ++ input = '"' :: (s.toList.flatMap esc ++ '"' :: input) := by
    simp [quoted]
  rw [htext, value_quote_iff]
  constructor
  · rintro ⟨code, rfl, ⟨hchars⟩⟩
    obtain ⟨hall, rfl, hrest⟩ := h.chars_iff.mp hchars
    exact ⟨hall, congrArg Json.string (codePoints_chars _), hrest⟩
  · rintro ⟨hall, rfl, hrest⟩
    refine ⟨_, rfl, ?_⟩
    rw [← codePoints_chars]
    exact .mk (h.chars_iff.mpr ⟨hall, rfl, hrest⟩)

theorem Escaping.value_quoted (h : Escaping esc ok) {s : String} (input : List Char)
    (hok : ∀ c ∈ s.toList, ok c) :
    Value (quoted esc s ++ input) (.string (s.toList.map Char.toNat)) input :=
  h.value_quoted_iff.mpr ⟨hok, rfl, rfl⟩

/-- The closing bracket, at the end of the text. -/
theorem structural_close_iff {c : Char} {rest : List Char} :
    Structural c [']'] rest ↔ ']' = c ∧ rest = [] := by
  rw [structural_cons_iff (by decide), ws_nil_iff]

/-- No whitespace is written before a string. -/
theorem ws_listText_iff {s : String} {list : List String} {rest : List Char} :
    Ws (listText esc (s :: list) ++ [']']) rest ↔ rest = listText esc (s :: list) ++ [']'] := by
  rw [listText, quoted, List.cons_append, List.cons_append, List.cons_append,
    ws_cons_iff (by decide)]

/-- The comma before a string. -/
theorem structural_comma_iff {c : Char} {s : String} {list : List String} {rest : List Char} :
    Structural c (',' :: (listText esc (s :: list) ++ [']'])) rest ↔
      ',' = c ∧ rest = listText esc (s :: list) ++ [']'] := by
  rw [structural_cons_iff (by decide), ws_listText_iff]

/-- The elements of the array, up to its closing bracket.  After each string stands a
comma or the bracket, never both, so the reader's choices are forced. -/
theorem Escaping.elements_listText_iff (h : Escaping esc ok) {s : String} {list : List String}
    {vs : List Json} {rest : List Char} :
    (∃ b, Elements (listText esc (s :: list) ++ [']']) vs b ∧ Structural ']' b rest) ↔
      (∀ t ∈ s :: list, ∀ c ∈ t.toList, ok c)
        ∧ vs = (s :: list).map (fun t => .string (t.toList.map Char.toNat)) ∧ rest = [] := by
  induction list generalizing s vs with
  | nil =>
      have htext : listText esc [s] ++ [']'] = quoted esc s ++ [']'] := by simp [listText]
      rw [htext]
      constructor
      · rintro ⟨b, hvs, hb⟩
        obtain ⟨v, a, hv, hmore⟩ := elements_iff.mp hvs
        obtain ⟨hok, rfl, rfl⟩ := h.value_quoted_iff.mp hv
        rcases hmore with ⟨rfl, rfl⟩ | ⟨b', vs', hsep, -, -⟩
        · exact ⟨by simpa using hok, rfl, (structural_close_iff.mp hb).2⟩
        · exact absurd (structural_close_iff.mp hsep).1 (by decide)
      · rintro ⟨hok, rfl, rfl⟩
        have hv := h.value_quoted [']'] (hok s (List.mem_cons_self ..))
        exact ⟨[']'], .one hv, structural_close_iff.mpr ⟨rfl, rfl⟩⟩
  | cons t list ih =>
      have htext : listText esc (s :: t :: list) ++ [']']
          = quoted esc s ++ (',' :: (listText esc (t :: list) ++ [']'])) := by
        simp [listText]
      rw [htext, List.forall_mem_cons, List.map_cons]
      constructor
      · rintro ⟨b, hvs, hb⟩
        obtain ⟨v, a, hv, hmore⟩ := elements_iff.mp hvs
        obtain ⟨hok, rfl, rfl⟩ := h.value_quoted_iff.mp hv
        rcases hmore with ⟨rfl, rfl⟩ | ⟨b', vs', hsep, hvs', rfl⟩
        · exact absurd (structural_comma_iff.mp hb).1 (by decide)
        · obtain ⟨-, rfl⟩ := structural_comma_iff.mp hsep
          obtain ⟨hall, rfl, hrest⟩ := ih.mp ⟨b, hvs', hb⟩
          exact ⟨⟨hok, hall⟩, rfl, hrest⟩
      · rintro ⟨⟨hok, hall⟩, rfl, hrest⟩
        obtain ⟨b, hvs, hb⟩ := ih.mpr ⟨hall, rfl, hrest⟩
        have hv := h.value_quoted (',' :: (listText esc (t :: list) ++ [']'])) hok
        exact ⟨b, .more hv (structural_comma_iff.mpr ⟨rfl, rfl⟩) hvs, hb⟩

/-- The array as a value. -/
theorem Escaping.value_arrayText_iff (h : Escaping esc ok) {list : List String} {v : Json}
    {rest : List Char} :
    Value (arrayText esc list) v rest ↔
      (∀ t ∈ list, ∀ c ∈ t.toList, ok c) ∧ v = .ofStrings list ∧ rest = [] := by
  rw [arrayText, List.cons_append, value_bracket_iff]
  cases list with
  | nil =>
      have hws : ∀ a, Ws [']'] a ↔ a = [']'] := fun a => ws_cons_iff (by decide)
      constructor
      · rintro (⟨a, ha, rfl, hb⟩ | ⟨a, b, vs, ha, rfl, hvs, hb⟩)
        · obtain rfl := (hws a).mp ha
          exact ⟨by simp, rfl, (structural_close_iff.mp hb).2⟩
        · obtain rfl := (hws a).mp ha
          obtain ⟨v, a, hv, -⟩ := elements_iff.mp hvs
          exact absurd hv Value.ne_close
      · rintro ⟨-, rfl, rfl⟩
        exact .inl ⟨[']'], .nil, rfl, structural_close_iff.mpr ⟨rfl, rfl⟩⟩
  | cons s list =>
      constructor
      · rintro (⟨a, ha, rfl, hb⟩ | ⟨a, b, vs, ha, rfl, hvs, hb⟩)
        · obtain rfl := ws_listText_iff.mp ha
          rw [listText, quoted, List.cons_append, List.cons_append, List.cons_append] at hb
          have hquote := ((structural_cons_iff (by decide)).mp hb).1
          exact absurd hquote (by decide)
        · obtain rfl := ws_listText_iff.mp ha
          obtain ⟨hall, rfl, hrest⟩ := h.elements_listText_iff.mp ⟨b, hvs, hb⟩
          exact ⟨hall, rfl, hrest⟩
      · rintro ⟨hall, rfl, rfl⟩
        obtain ⟨b, hvs, hb⟩ := h.elements_listText_iff.mpr ⟨hall, rfl, rfl⟩
        exact .inr ⟨_, b, _, .nil, rfl, hvs, hb⟩

/-- **What an array of quoted strings is read as.**  It is a JSON text exactly when every
character is one the escaping covers, and then its only value is the array of the
strings. -/
theorem Escaping.jsonText_arrayText_iff (h : Escaping esc ok) {list : List String} {v : Json} :
    JsonText (arrayText esc list) v ↔
      (∀ t ∈ list, ∀ c ∈ t.toList, ok c) ∧ v = .ofStrings list := by
  have hws : ∀ a, Ws (arrayText esc list) a ↔ a = arrayText esc list := by
    intro a
    rw [arrayText, List.cons_append, ws_cons_iff (by decide)]
  constructor
  · rintro ⟨a, b, ha, hv, -⟩
    obtain rfl := (hws a).mp ha
    obtain ⟨hall, hv, -⟩ := h.value_arrayText_iff.mp hv
    exact ⟨hall, hv⟩
  · rintro ⟨hall, rfl⟩
    exact ⟨_, [], .nil, h.value_arrayText_iff.mpr ⟨hall, rfl, rfl⟩, .nil⟩

/-- The text encodes its strings when the escaping covers them, and otherwise nothing. -/
theorem Escaping.encodes_iff (h : Escaping esc ok) {list list' : List String} :
    Encodes (arrayText esc list) list' ↔
      (∀ t ∈ list, ∀ c ∈ t.toList, ok c) ∧ list' = list := by
  constructor
  · intro henc
    obtain ⟨hok, heq⟩ := h.jsonText_arrayText_iff.mp ((henc _).mpr rfl)
    exact ⟨hok, Json.ofStrings_injective heq⟩
  · rintro ⟨hok, rfl⟩ v
    rw [h.jsonText_arrayText_iff, and_iff_right hok]

end Writer

end JsonGrammar
