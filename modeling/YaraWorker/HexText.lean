/-
# Lowercase hex text

Two lowercase hex digits for each byte, high half first.

* `unhex_hexText` : decoding the hex text of a byte string gives it back, so
  `hexText` is injective (`hexText_injective`);
* `isHexDigit_of_mem_hexText`, `length_hexText` : the text is made of `[0-9a-f]`
  and is twice as long as the byte string;
* `textBytes_hexText` : its UTF-8 encoding, one byte for each digit.
-/
import Mathlib.Data.List.Basic
import YaraWorker.Utf8Bytes

open Utf8Bytes

namespace HexText

/-- The two lowercase hex digits of a byte (`{:02x}`). -/
def hexPair (b : UInt8) : List Char := [Nat.digitChar (b.toNat / 16), Nat.digitChar (b.toNat % 16)]

/-- The hex text of a byte string. -/
def hexText (bytes : List UInt8) : String :=
  String.join (bytes.map (fun b => String.ofList (hexPair b)))

/-- A lowercase hex digit. -/
def IsHexDigit (c : Char) : Prop := ('0' ≤ c ∧ c ≤ '9') ∨ ('a' ≤ c ∧ c ≤ 'f')

instance (c : Char) : Decidable (IsHexDigit c) := inferInstanceAs (Decidable (_ ∨ _))

/-- The value of a lowercase hex digit. -/
def unhexDigit (c : Char) : Option ℕ := (List.range 16).find? (fun d => Nat.digitChar d = c)

/-- Decode pairs of lowercase hex digits. -/
def unhex : List Char → Option (List UInt8)
  | [] => some []
  | [_] => none
  | c :: d :: rest =>
      match unhexDigit c, unhexDigit d, unhex rest with
      | some x, some y, some bytes => some (UInt8.ofNat (16 * x + y) :: bytes)
      | _, _, _ => none

/-! ## Digits -/

theorem unhexDigit_digitChar : ∀ d < 16, unhexDigit (Nat.digitChar d) = some d := by decide

theorem isHexDigit_digitChar : ∀ d < 16, IsHexDigit (Nat.digitChar d) := by decide

/-- Hex digits are ASCII. -/
theorem toNat_lt_of_isHexDigit {c : Char} (h : IsHexDigit c) : c.toNat < 128 := by
  rcases h with ⟨_, h⟩ | ⟨_, h⟩
  · have h' : c.toNat ≤ 57 := h
    omega
  · have h' : c.toNat ≤ 102 := h
    omega

theorem isHexDigit_of_mem_hexPair {b : UInt8} {c : Char} (h : c ∈ hexPair b) : IsHexDigit c := by
  have hb := b.toNat_lt
  rw [hexPair, List.mem_cons, List.mem_singleton] at h
  rcases h with rfl | rfl
  · exact isHexDigit_digitChar _ (by omega)
  · exact isHexDigit_digitChar _ (by omega)

/-! ## The characters of a hex text -/

theorem toList_hexText (bytes : List UInt8) : (hexText bytes).toList = bytes.flatMap hexPair := by
  rw [hexText, String.toList_join, List.flatMap_map]
  simp only [String.toList_ofList]

theorem isHexDigit_of_mem_hexText {bytes : List UInt8} {c : Char}
    (h : c ∈ (hexText bytes).toList) : IsHexDigit c := by
  rw [toList_hexText, List.mem_flatMap] at h
  obtain ⟨b, _, hc⟩ := h
  exact isHexDigit_of_mem_hexPair hc

theorem length_hexText (bytes : List UInt8) : (hexText bytes).toList.length = 2 * bytes.length := by
  rw [toList_hexText]
  induction bytes with
  | nil => rfl
  | cons b bytes ih =>
      rw [List.flatMap_cons, List.length_append, ih, List.length_cons]
      show 2 + 2 * bytes.length = 2 * (bytes.length + 1)
      omega

/-- **Hex round trip.** -/
theorem unhex_hexText (bytes : List UInt8) : unhex (hexText bytes).toList = some bytes := by
  rw [toList_hexText]
  induction bytes with
  | nil => rfl
  | cons b bytes ih =>
      have hb := b.toNat_lt
      rw [List.flatMap_cons]
      show unhex (Nat.digitChar (b.toNat / 16) :: Nat.digitChar (b.toNat % 16)
        :: bytes.flatMap hexPair) = _
      rw [unhex, unhexDigit_digitChar _ (by omega), unhexDigit_digitChar _ (by omega), ih]
      have hjoin : 16 * (b.toNat / 16) + b.toNat % 16 = b.toNat := by omega
      simp only [hjoin, UInt8.ofNat_toNat]

theorem hexText_injective {a b : List UInt8} (h : hexText a = hexText b) : a = b := by
  have ha := unhex_hexText a
  rw [h, unhex_hexText b] at ha
  exact (Option.some.inj ha).symm

/-! ## The bytes of a hex text -/

/-- The UTF-8 encoding of a hex text is one byte for each digit. -/
theorem textBytes_hexText (bytes : List UInt8) :
    textBytes (hexText bytes) = (hexText bytes).toList.map (fun c => c.val.toUInt8) := by
  rw [← flatMap_utf8EncodeChar_ascii
    (fun c hc => toNat_lt_of_isHexDigit (isHexDigit_of_mem_hexText hc)), ← textBytes_ofList,
    String.ofList_toList]

/-- The hex text takes two bytes for each byte. -/
@[simp] theorem utf8ByteSize_hexText (bytes : List UInt8) :
    (hexText bytes).utf8ByteSize = 2 * bytes.length := by
  rw [← length_textBytes, textBytes_hexText, List.length_map, length_hexText]

end HexText
