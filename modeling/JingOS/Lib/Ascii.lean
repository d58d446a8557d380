import Mathlib.Data.UInt
import Mathlib.Tactic.Common

/-!
# ASCII: bytes and characters

A text whose bytes are all below 128 has one byte for each character. The lemmas here take a
text to its bytes and back: what Rust's `as_bytes` and `from_utf8` do on ASCII.

* `isAsciiWhitespace`, `isAsciiAlphanumeric` — the predicates of `u8`;
* `fromUTF8_asciiText` — bytes below 128 are valid UTF-8, and which text they are;
* `textBytes_asciiText` — the round trip; `textBytes_eq` — a text of ASCII characters.
-/

namespace Ascii

/-- `u8::is_ascii`. -/
def isAscii (byte : UInt8) : Bool := byte < 0x80

/-- `u8::is_ascii_whitespace`; the vertical tab is not one of them. -/
def isAsciiWhitespace (byte : UInt8) : Bool :=
  byte == 0x20 || byte == 0x09 || byte == 0x0A || byte == 0x0C || byte == 0x0D

/-- `u8::is_ascii_alphanumeric`. -/
def isAsciiAlphanumeric (byte : UInt8) : Bool :=
  (0x30 ≤ byte && byte ≤ 0x39) || (0x41 ≤ byte && byte ≤ 0x5A) || (0x61 ≤ byte && byte ≤ 0x7A)

/-- `char::is_ascii`. -/
def isAsciiChar (c : Char) : Bool := c.toNat < 128

/-- `c as u8`. -/
def charByte (c : Char) : UInt8 := UInt8.ofNat c.toNat

/-- `byte as char`. -/
def byteChar (byte : UInt8) : Char := Char.ofNat byte.toNat

/-- `as_bytes`. -/
def textBytes (text : String) : List UInt8 := text.toByteArray.data.toList

/-- The text of a list of bytes. -/
def asciiText (bytes : List UInt8) : String := String.ofList (bytes.map byteChar)

variable {bytes : List UInt8}

theorem toNat_byteChar {byte : UInt8} (h : byte < 0x80) : (byteChar byte).toNat = byte.toNat := by
  have hlt : byte.toNat < 128 := h
  have hvalid : Nat.isValidChar byte.toNat := Or.inl (by omega)
  rw [byteChar, Char.ofNat, dif_pos hvalid]
  rfl

theorem charByte_byteChar {byte : UInt8} (h : byte < 0x80) : charByte (byteChar byte) = byte := by
  rw [charByte, toNat_byteChar h, UInt8.ofNat_toNat]

theorem byteChar_charByte {c : Char} (h : c.toNat < 128) : byteChar (charByte c) = c := by
  rw [byteChar, charByte, UInt8.toNat_ofNat_of_lt' (by change c.toNat < 256; omega),
    Char.ofNat_toNat]

theorem charByte_lt {c : Char} (h : c.toNat < 128) : charByte c < 0x80 := by
  rw [UInt8.lt_iff_toNat_lt, charByte, UInt8.toNat_ofNat_of_lt' (by change c.toNat < 256; omega)]
  exact h

theorem textBytes_append (text more : String) :
    textBytes (text ++ more) = textBytes text ++ textBytes more := by
  unfold textBytes
  rw [String.toByteArray_append, ByteArray.data_append, Array.toList_append]

/-- An ASCII character is encoded by its own byte. -/
theorem utf8EncodeChar_eq {c : Char} (h : c.toNat < 128) :
    String.utf8EncodeChar c = [charByte c] := by
  have hsize : c.utf8Size = 1 := by
    rw [Char.utf8Size_eq_one_iff, UInt32.le_iff_toNat_le]
    exact Nat.le_of_lt_succ h
  rw [String.utf8EncodeChar_eq_singleton hsize]
  rfl

/-- All bytes of another character are above those of ASCII. -/
theorem le_of_mem_utf8EncodeChar {c : Char} (h : 128 ≤ c.toNat) {byte : UInt8}
    (hbyte : byte ∈ String.utf8EncodeChar c) : 0x80 ≤ byte := by
  have hhigh : ∀ n, 128 ≤ n → n < 256 → (0x80 : UInt8) ≤ UInt8.ofNat n := by
    intro n hle hlt
    rw [UInt8.le_iff_toNat_le, UInt8.toNat_ofNat_of_lt' hlt]
    exact hle
  have hsize : ¬ c.val.toNat ≤ 0x7f := Nat.not_le.mpr h
  unfold String.utf8EncodeChar at hbyte
  simp only [if_neg hsize] at hbyte
  split at hbyte
  · simp only [List.mem_cons, List.not_mem_nil, or_false] at hbyte
    rcases hbyte with rfl | rfl
    all_goals exact hhigh _ (by omega) (by omega)
  · split at hbyte
    · simp only [List.mem_cons, List.not_mem_nil, or_false] at hbyte
      rcases hbyte with rfl | rfl | rfl
      all_goals exact hhigh _ (by omega) (by omega)
    · simp only [List.mem_cons, List.not_mem_nil, or_false] at hbyte
      rcases hbyte with rfl | rfl | rfl | rfl
      all_goals exact hhigh _ (by omega) (by omega)

theorem textBytes_ofList_eq (cs : List Char) :
    textBytes (String.ofList cs) = cs.flatMap String.utf8EncodeChar := by
  change (cs.flatMap String.utf8EncodeChar).toByteArray.data.toList = _
  rw [List.toList_data_toByteArray]

theorem textBytes_ofList {cs : List Char} (h : ∀ c ∈ cs, c.toNat < 128) :
    textBytes (String.ofList cs) = cs.map charByte := by
  rw [textBytes_ofList_eq]
  induction cs with
  | nil => rfl
  | cons c cs ih =>
    rw [List.forall_mem_cons] at h
    rw [List.flatMap_cons, utf8EncodeChar_eq h.1, ih h.2]
    rfl

/-- The characters of bytes below 128. -/
theorem toNat_lt_of_mem_map (h : ∀ byte ∈ bytes, byte < 0x80) :
    ∀ c ∈ bytes.map byteChar, c.toNat < 128 := by
  intro c hc
  rcases List.mem_map.mp hc with ⟨byte, hbyte, rfl⟩
  rw [toNat_byteChar (h byte hbyte)]
  exact h byte hbyte

theorem map_charByte_map_byteChar (h : ∀ byte ∈ bytes, byte < 0x80) :
    (bytes.map byteChar).map charByte = bytes := by
  have hid : bytes.map (charByte ∘ byteChar) = bytes.map id := by
    apply List.map_congr_left
    intro byte hbyte
    exact charByte_byteChar (h byte hbyte)
  rw [List.map_map, hid, List.map_id]

theorem textBytes_asciiText (h : ∀ byte ∈ bytes, byte < 0x80) :
    textBytes (asciiText bytes) = bytes := by
  rw [asciiText, textBytes_ofList (toNat_lt_of_mem_map h), map_charByte_map_byteChar h]

/-- Bytes below 128 are valid UTF-8, one character each. -/
theorem fromUTF8_asciiText (h : ∀ byte ∈ bytes, byte < 0x80) :
    String.fromUTF8? ⟨bytes.toArray⟩ = some (asciiText bytes) := by
  have hbytes : (⟨bytes.toArray⟩ : ByteArray) = (asciiText bytes).toByteArray := by
    apply ByteArray.ext
    apply Array.toList_inj.mp
    exact (textBytes_asciiText h).symm
  have hvalid : ByteArray.IsValidUTF8 ⟨bytes.toArray⟩ := by
    rw [hbytes]
    exact (asciiText bytes).isValidUTF8
  rw [String.fromUTF8?, dif_pos hvalid]
  apply congrArg some
  apply String.toByteArray_inj.mp
  exact hbytes

theorem asciiText_append (text more : List UInt8) :
    asciiText (text ++ more) = asciiText text ++ asciiText more := by
  unfold asciiText
  rw [List.map_append, String.ofList_append]

@[simp] theorem toList_asciiText (bytes : List UInt8) :
    (asciiText bytes).toList = bytes.map byteChar := by
  simp [asciiText]

theorem textBytes_eq {text : String} (h : ∀ c ∈ text.toList, c.toNat < 128) :
    textBytes text = text.toList.map charByte := by
  have hlist := textBytes_ofList h
  rwa [String.ofList_toList] at hlist

end Ascii
