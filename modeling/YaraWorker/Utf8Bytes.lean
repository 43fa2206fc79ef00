/-
# Text and its UTF-8 bytes

Strings as byte lists, in both directions.  `textBytes` is the UTF-8 encoding of
a string, `fromUtf8` the strict decoder: it accepts exactly the encodings of
sequences of Unicode scalar values, so overlong forms, surrogates, truncated
sequences and values above `U+10FFFF` are rejected.

* `fromUtf8_eq_some_iff` : decoding gives `s` exactly on the bytes of `s`;
* `fromUtf8_ascii` : bytes below `0x80` decode to themselves.
-/
import Mathlib.Data.List.Basic

namespace Utf8Bytes

/-- The UTF-8 bytes of a string. -/
def textBytes (s : String) : List UInt8 := s.toByteArray.data.toList

/-- The strict UTF-8 decoder. -/
def fromUtf8 (bytes : List UInt8) : Option String := String.fromUTF8? bytes.toByteArray

/-! ## Round trips -/

theorem toByteArray_textBytes (s : String) : (textBytes s).toByteArray = s.toByteArray := by
  refine ByteArray.ext ?_
  rw [List.data_toByteArray, textBytes, Array.toArray_toList]

theorem textBytes_injective {s t : String} (h : textBytes s = textBytes t) : s = t := by
  rw [← String.toByteArray_inj, ← toByteArray_textBytes s, ← toByteArray_textBytes t, h]

/-- Decoding inverts encoding. -/
theorem fromUtf8_textBytes (s : String) : fromUtf8 (textBytes s) = some s := by
  rw [fromUtf8, toByteArray_textBytes, String.fromUTF8?, dif_pos s.isValidUTF8]
  rfl

/-- **Exactness of the decoder.** -/
theorem fromUtf8_eq_some_iff (bytes : List UInt8) (s : String) :
    fromUtf8 bytes = some s ↔ textBytes s = bytes := by
  constructor
  · intro h
    rw [fromUtf8, String.fromUTF8?] at h
    split at h
    · next hvalid =>
      cases h
      show bytes.toByteArray.data.toList = bytes
      exact List.toList_data_toByteArray
    · cases h
  · rintro rfl
    exact fromUtf8_textBytes s

/-- The bytes of a text are the encodings of its characters. -/
theorem textBytes_ofList (cs : List Char) :
    textBytes (String.ofList cs) = cs.flatMap String.utf8EncodeChar := by
  rw [textBytes, String.toByteArray_ofList, List.utf8Encode, List.toList_data_toByteArray]

/-! ## Sizes -/

@[simp] theorem length_textBytes (s : String) : (textBytes s).length = s.utf8ByteSize := by
  rw [textBytes, Array.length_toList]
  rfl

/-! ## ASCII -/

/-- An ASCII character takes one byte, its code point. -/
theorem utf8EncodeChar_ascii {c : Char} (hc : c.toNat < 128) :
    String.utf8EncodeChar c = [c.val.toUInt8] := by
  refine String.utf8EncodeChar_eq_singleton ?_
  rw [Char.utf8Size_eq_one_iff, UInt32.le_iff_toNat_le]
  exact Nat.le_of_lt_succ hc

/-- The bytes of an ASCII text, one for each character. -/
theorem flatMap_utf8EncodeChar_ascii {cs : List Char} (h : ∀ c ∈ cs, c.toNat < 128) :
    cs.flatMap String.utf8EncodeChar = cs.map (fun c => c.val.toUInt8) := by
  induction cs with
  | nil => rfl
  | cons c cs ih =>
      rw [List.flatMap_cons, utf8EncodeChar_ascii (h c List.mem_cons_self),
        ih (fun c hc => h c (List.mem_cons_of_mem _ hc)), List.map_cons, List.singleton_append]

/-- The code point of the character of a byte. -/
@[simp] theorem toNat_ofUInt8 (b : UInt8) : (Char.ofUInt8 b).toNat = b.toNat := by
  show b.toUInt32.toNat = b.toNat
  simp

/-- **ASCII decodes to itself.** -/
theorem fromUtf8_ascii {bytes : List UInt8} (h : ∀ b ∈ bytes, b.toNat < 128) :
    fromUtf8 bytes = some (String.ofList (bytes.map Char.ofUInt8)) := by
  have hchars : ∀ c ∈ bytes.map Char.ofUInt8, c.toNat < 128 := by
    intro c hc
    obtain ⟨b, hb, rfl⟩ := List.mem_map.mp hc
    rw [toNat_ofUInt8]
    exact h b hb
  rw [fromUtf8_eq_some_iff, textBytes_ofList, flatMap_utf8EncodeChar_ascii hchars, List.map_map]
  conv_rhs => rw [← List.map_id bytes]
  refine List.map_congr_left (fun b _ => ?_)
  show b.toUInt32.toUInt8 = b
  simp

end Utf8Bytes
