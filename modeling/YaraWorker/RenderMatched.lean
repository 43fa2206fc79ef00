/-
# What `render_matched` writes, and when two byte strings share a rendering

`renderMatched` is a fallback encoding (`rendering`): printable UTF-8 is written
as itself, everything else as lowercase hex.  Both forms are injective and their
languages overlap, so the only collisions are those of a byte string that is not
printable with its own hex text.

* `renderMatched_exact` : the characters written, the round trip, and the exact
  set of collisions;
* `renderMatched_prefix_injective` : no byte string shares its rendering with a
  proper prefix of itself.
-/
import YaraWorker.FallbackEncoding
import YaraWorker.Scanning

open Utf8Bytes HexText

namespace YaraWorker

/-! ## Printable byte strings -/

/-- Not a control character, tab excepted. -/
def IsClean (c : Char) : Prop := isControl c = true → c = '\t'

instance (c : Char) : Decidable (IsClean c) :=
  inferInstanceAs (Decidable (isControl c = true → c = '\t'))

/-- Well-formed UTF-8, the encoding of a sequence of Unicode scalar values,
without control characters other than tab. -/
def PrintableUtf8 (bytes : List UInt8) : Prop :=
  ∃ cs : List Char, bytes = cs.flatMap String.utf8EncodeChar ∧ ∀ c ∈ cs, IsClean c

/-- The text of a printable byte string. -/
def printableText (bytes : List UInt8) : Option String :=
  (fromUtf8 bytes).filter (fun s => s.toList.all (fun c => !isControl c || c == '\t'))

theorem isClean_iff (c : Char) : (!isControl c || c == '\t') = true ↔ IsClean c := by
  unfold IsClean
  cases isControl c <;> simp

theorem printableText_eq_some_iff (bytes : List UInt8) (s : String) :
    printableText bytes = some s ↔ textBytes s = bytes ∧ ∀ c ∈ s.toList, IsClean c := by
  rw [printableText, Option.filter_eq_some_iff, fromUtf8_eq_some_iff, List.all_eq_true]
  simp only [isClean_iff]

/-- Printable byte strings are those with a printable text. -/
theorem printableUtf8_iff (bytes : List UInt8) :
    PrintableUtf8 bytes ↔ ∃ s, printableText bytes = some s := by
  constructor
  · rintro ⟨cs, rfl, hclean⟩
    refine ⟨String.ofList cs, (printableText_eq_some_iff _ _).mpr ⟨textBytes_ofList cs, ?_⟩⟩
    rwa [String.toList_ofList]
  · rintro ⟨s, hs⟩
    obtain ⟨hbytes, hclean⟩ := (printableText_eq_some_iff _ _).mp hs
    refine ⟨s.toList, ?_, hclean⟩
    rw [← hbytes, ← textBytes_ofList, String.ofList_toList]

theorem printableText_eq_none_iff (bytes : List UInt8) :
    printableText bytes = none ↔ ¬ PrintableUtf8 bytes := by
  rw [printableUtf8_iff, Option.eq_none_iff_forall_ne_some]
  simp

/-- The renderer as an encoding with a fallback. -/
def rendering : FallbackEncoding (List UInt8) String where
  preferred := printableText
  fallback := hexText
  preferred_inj := by
    intro a b t ha hb
    rw [← ((printableText_eq_some_iff a t).mp ha).1, ← ((printableText_eq_some_iff b t).mp hb).1]
  fallback_inj := hexText_injective

theorem renderMatched_eq_encode (bytes : List UInt8) : renderMatched bytes = rendering.encode bytes := by
  show _ = ((fromUtf8 bytes).filter _).getD (hexText bytes)
  unfold renderMatched
  cases fromUtf8 bytes with
  | none => rfl
  | some s =>
      show (if _ then s else hexText bytes) = _
      rw [Option.filter_some]
      split_ifs <;> rfl

/-- A printable byte string is written as itself. -/
theorem renderMatched_of_printable {bytes : List UInt8} (h : PrintableUtf8 bytes) :
    textBytes (renderMatched bytes) = bytes ∧ ∀ c ∈ (renderMatched bytes).toList, IsClean c := by
  obtain ⟨s, hs⟩ := (printableUtf8_iff bytes).mp h
  rw [renderMatched_eq_encode, FallbackEncoding.encode_of_some hs]
  exact (printableText_eq_some_iff bytes s).mp hs

/-- Any other byte string is written in hex. -/
theorem renderMatched_of_not_printable {bytes : List UInt8} (h : ¬ PrintableUtf8 bytes) :
    renderMatched bytes = hexText bytes := by
  rw [renderMatched_eq_encode,
    FallbackEncoding.encode_of_none ((printableText_eq_none_iff bytes).mpr h)]
  rfl

/-! ## Hex texts are printable -/

theorem isClean_of_isHexDigit {c : Char} (h : IsHexDigit c) : IsClean c := by
  intro hcontrol
  have hrange : (48 ≤ c.toNat ∧ c.toNat ≤ 57) ∨ (97 ≤ c.toNat ∧ c.toNat ≤ 102) := h
  unfold isControl at hcontrol
  simp only [Bool.or_eq_true, Bool.and_eq_true, decide_eq_true_eq] at hcontrol
  omega

/-- A byte string of hex digits is printable. -/
theorem printableUtf8_of_hexDigits {cs : List Char} (h : ∀ c ∈ cs, IsHexDigit c) :
    PrintableUtf8 (cs.map (fun c => c.val.toUInt8)) := by
  refine ⟨cs, ?_, fun c hc => isClean_of_isHexDigit (h c hc)⟩
  rw [flatMap_utf8EncodeChar_ascii (fun c hc => toNat_lt_of_isHexDigit (h c hc))]

theorem printableText_hexText (bytes : List UInt8) :
    printableText (textBytes (hexText bytes)) = some (hexText bytes) := by
  rw [printableText_eq_some_iff]
  exact ⟨rfl, fun c hc => isClean_of_isHexDigit (isHexDigit_of_mem_hexText hc)⟩

/-- The byte string whose text is a given hex text. -/
theorem printableText_eq_hexText_iff (a b : List UInt8) :
    printableText b = some (hexText a) ↔ b = textBytes (hexText a) := by
  constructor
  · intro h
    exact ((printableText_eq_some_iff _ _).mp h).1.symm
  · rintro rfl
    exact printableText_hexText a

/-- A byte string of ASCII bytes is printable when its characters are clean. -/
theorem printableUtf8_ascii_iff {bytes : List UInt8} (h : ∀ b ∈ bytes, b.toNat < 128) :
    PrintableUtf8 bytes ↔ ∀ b ∈ bytes, IsClean (Char.ofUInt8 b) := by
  have htext : textBytes (String.ofList (bytes.map Char.ofUInt8)) = bytes :=
    (fromUtf8_eq_some_iff _ _).mp (fromUtf8_ascii h)
  rw [printableUtf8_iff]
  constructor
  · rintro ⟨s, hs⟩ b hb
    obtain ⟨hbytes, hclean⟩ := (printableText_eq_some_iff _ _).mp hs
    have hs' : s = String.ofList (bytes.map Char.ofUInt8) :=
      textBytes_injective (hbytes.trans htext.symm)
    refine hclean _ ?_
    rw [hs', String.toList_ofList]
    exact List.mem_map_of_mem hb
  · intro hclean
    refine ⟨_, (printableText_eq_some_iff _ _).mpr ⟨htext, ?_⟩⟩
    intro c hc
    rw [String.toList_ofList] at hc
    obtain ⟨b, hb, rfl⟩ := List.mem_map.mp hc
    exact hclean b hb

/-- Every character written is clean. -/
theorem isClean_of_mem_renderMatched {bytes : List UInt8} {c : Char}
    (hc : c ∈ (renderMatched bytes).toList) : IsClean c := by
  by_cases h : PrintableUtf8 bytes
  · exact (renderMatched_of_printable h).2 c hc
  · rw [renderMatched_of_not_printable h] at hc
    exact isClean_of_isHexDigit (isHexDigit_of_mem_hexText hc)

/-! ## Collisions -/

/-- **The collisions.**  Two byte strings share a rendering exactly when one is not
printable and the other is its hex text. -/
theorem renderMatched_eq_iff {a b : List UInt8} (hne : a ≠ b) :
    renderMatched a = renderMatched b ↔
      (¬ PrintableUtf8 a ∧ b = textBytes (hexText a))
        ∨ (¬ PrintableUtf8 b ∧ a = textBytes (hexText b)) := by
  rw [renderMatched_eq_encode, renderMatched_eq_encode, FallbackEncoding.encode_eq_iff hne,
    ← printableText_eq_none_iff, ← printableText_eq_none_iff, ← printableText_eq_hexText_iff,
    ← printableText_eq_hexText_iff]
  exact Iff.rfl

instance (bytes : List UInt8) : Decidable (PrintableUtf8 bytes) :=
  decidable_of_iff ((printableText bytes).isSome = true)
    (by rw [printableUtf8_iff, Option.isSome_iff_exists])

/-- The byte `00` is not printable, and its hex text is `00`. -/
theorem nul_collision : ¬ PrintableUtf8 [0x00] ∧ [0x30, 0x30] = textBytes (hexText [0x00]) := by
  constructor
  · rw [printableUtf8_ascii_iff (List.forall_mem_singleton.mpr (by decide)),
      List.forall_mem_singleton]
    decide
  · rw [textBytes_hexText, toList_hexText]
    decide

/-- The empty byte string is printable. -/
theorem printableUtf8_nil : PrintableUtf8 [] := ⟨[], rfl, fun _ h => absurd h List.not_mem_nil⟩

/-- A byte string and its hex text have different lengths, unless both are
empty. -/
theorem length_textBytes_hexText (bytes : List UInt8) :
    (textBytes (hexText bytes)).length = 2 * bytes.length := by
  rw [length_textBytes, utf8ByteSize_hexText]

/-- A byte string in hex form is not the hex text of a byte string that is no
longer than it. -/
theorem length_lt_of_not_printable {a : List UInt8} (ha : ¬ PrintableUtf8 a) :
    a.length < (textBytes (hexText a)).length := by
  have hpos : 0 < a.length := by
    rcases a with _ | ⟨x, a⟩
    · exact absurd printableUtf8_nil ha
    · exact Nat.succ_pos _
  rw [length_textBytes_hexText]
  omega

/-- Renderings of byte strings of one length are different. -/
theorem renderMatched_injective_of_length_eq {a b : List UInt8} (hlen : a.length = b.length)
    (h : renderMatched a = renderMatched b) : a = b := by
  by_contra hne
  rcases (renderMatched_eq_iff hne).mp h with ⟨ha, hb⟩ | ⟨hb, ha⟩
  · have hlt := length_lt_of_not_printable ha
    rw [← hb] at hlt
    omega
  · have hlt := length_lt_of_not_printable hb
    rw [← ha] at hlt
    omega

/-- **No collision with a prefix.**  A prefix of a hex text is itself printable, so
it is never rendered as that text. -/
theorem renderMatched_prefix_injective {a b : List UInt8} (hpre : a <+: b)
    (h : renderMatched a = renderMatched b) : a = b := by
  by_contra hne
  have hle := hpre.length_le
  rcases (renderMatched_eq_iff hne).mp h with ⟨ha, hb⟩ | ⟨hb, ha⟩
  · -- `a` would be a prefix of a text of hex digits, hence printable
    refine ha ?_
    rw [hb, textBytes_hexText] at hpre
    obtain ⟨cs, hcs, rfl⟩ := List.prefix_map_iff.mp hpre
    exact printableUtf8_of_hexDigits (fun c hc => isHexDigit_of_mem_hexText (hcs.subset hc))
  · -- `a` would be longer than the byte string it is a prefix of
    have hlt := length_lt_of_not_printable hb
    rw [← ha] at hlt
    omega

/-- **The renderer is clean, and ambiguous only where it must be.**  The output has
no control character but tab; printable UTF-8 is written as itself and everything
else as hex that decodes to it; two different byte strings share a rendering
exactly when one is not printable and the other is its hex text, so never when
they have the same length. -/
theorem renderMatched_exact :
    (∀ b : List UInt8,
      (∀ c ∈ (renderMatched b).toList, isControl c = true → c = '\t')
      ∧ (PrintableUtf8 b → textBytes (renderMatched b) = b)
      ∧ (¬ PrintableUtf8 b → (renderMatched b).toList.length = 2 * b.length
          ∧ (∀ c ∈ (renderMatched b).toList, IsHexDigit c)
          ∧ unhex (renderMatched b).toList = some b))
    ∧ (∀ a b : List UInt8, a ≠ b →
        (renderMatched a = renderMatched b ↔
          (¬ PrintableUtf8 a ∧ b = textBytes (hexText a))
            ∨ (¬ PrintableUtf8 b ∧ a = textBytes (hexText b))))
    ∧ (∀ a b : List UInt8, a.length = b.length → renderMatched a = renderMatched b → a = b) := by
  refine ⟨fun b => ⟨fun c hc => isClean_of_mem_renderMatched hc,
    fun h => (renderMatched_of_printable h).1, fun h => ?_⟩,
    fun a b hne => renderMatched_eq_iff hne,
    fun a b hlen h => renderMatched_injective_of_length_eq hlen h⟩
  rw [renderMatched_of_not_printable h]
  exact ⟨length_hexText b, fun c hc => isHexDigit_of_mem_hexText hc, unhex_hexText b⟩

/-- The byte `00` and the text `00` share their rendering. -/
theorem renderMatched_exact_nul : ([0x00] : List UInt8) ≠ [0x30, 0x30]
    ∧ renderMatched [0x00] = renderMatched [0x30, 0x30] :=
  ⟨by decide, (renderMatched_exact.2.1 [0x00] [0x30, 0x30] (by decide)).mpr (Or.inl nul_collision)⟩

end YaraWorker
