/-
Module: FrontEnd.Proofs.TextBytes
Layer: Proofs
Purpose: Texts as bytes. The bytes of a slice are those between its positions, and the bytes that
  separate tokens occur in no character but those that are blank.
Imports: FrontEnd.Proofs.LexemeShapes
Trusted boundary: none
Main exports: Text.bytes, Text.bytes_ofList, Text.encode_slice, Text.blankBytes,
  Text.mem_blankBytes_of_isBlank, Text.toNat_of_mem_utf8EncodeChar, Text.not_mem_blankBytes
Open obligations: none
-/
import FrontEnd.Proofs.LexemeShapes

namespace FrontEnd

open Lexer (isBlank)

namespace Text

/-- The bytes of a string. -/
def bytes (text : String) : List UInt8 :=
  text.toUTF8.data.toList

/-- The bytes of a list of characters. -/
def encode (text : List Char) : List UInt8 :=
  text.flatMap String.utf8EncodeChar

theorem bytes_ofList (text : List Char) : bytes (String.ofList text) = encode text := by
  simp [bytes, encode, List.utf8Encode]

theorem bytes_eq (text : String) : bytes text = encode text.toList := by
  rw [← bytes_ofList, String.ofList_toList]

theorem encode_cons (c : Char) (text : List Char) :
    encode (c :: text) = String.utf8EncodeChar c ++ encode text :=
  List.flatMap_cons

@[simp] theorem encode_append (left right : List Char) :
    encode (left ++ right) = encode left ++ encode right :=
  List.flatMap_append

@[simp] theorem length_encode (text : List Char) : (encode text).length = utf8Size text := by
  induction text with
  | nil =>
      rfl
  | cons c text ih =>
      rw [encode_cons, List.length_append, String.length_utf8EncodeChar, ih, utf8Size_cons]

/-- A character below `0x80` is a single byte; the bytes of any other are at least `0x80`. -/
theorem toNat_of_mem_utf8EncodeChar {c : Char} {byte : UInt8}
    (member : byte ∈ String.utf8EncodeChar c) :
    byte.toNat = c.toNat ∨ (0x80 ≤ byte.toNat ∧ 0x80 ≤ c.toNat) := by
  by_cases ascii : c.val.toNat ≤ 0x7f
  · left
    rw [String.utf8EncodeChar, if_pos ascii, List.mem_singleton] at member
    rw [member, UInt8.toNat_ofNat']
    exact Nat.mod_eq_of_lt (by omega)
  · right
    refine ⟨?_, Nat.lt_of_not_le ascii⟩
    rw [String.utf8EncodeChar, if_neg ascii] at member
    split at member
    · simp only [List.mem_cons, List.not_mem_nil, or_false] at member
      rcases member with rfl | rfl <;> rw [UInt8.toNat_ofNat'] <;> omega
    · split at member
      · simp only [List.mem_cons, List.not_mem_nil, or_false] at member
        rcases member with rfl | rfl | rfl <;> rw [UInt8.toNat_ofNat'] <;> omega
      · simp only [List.mem_cons, List.not_mem_nil, or_false] at member
        rcases member with rfl | rfl | rfl | rfl <;> rw [UInt8.toNat_ofNat'] <;> omega

/-- The bytes that separate tokens: space, tab, carriage return, vertical tab and form feed. -/
def blankBytes : List UInt8 :=
  [0x20, 0x09, 0x0d, 0x0b, 0x0c]

theorem mem_blankBytes_iff {byte : UInt8} :
    byte ∈ blankBytes ↔
      byte.toNat = 32 ∨ byte.toNat = 9 ∨ byte.toNat = 13 ∨ byte.toNat = 11 ∨ byte.toNat = 12 := by
  simp only [blankBytes, List.mem_cons, List.not_mem_nil, or_false, ← UInt8.toNat_inj]
  exact Iff.rfl

/-- A blank character is one of the separating bytes. -/
theorem mem_blankBytes_of_isBlank {c : Char} (blank : isBlank c = true) :
    ∀ byte ∈ String.utf8EncodeChar c, byte ∈ blankBytes := by
  intro byte member
  rw [mem_blankBytes_iff]
  rw [Lexer.isBlank_iff] at blank
  rcases toNat_of_mem_utf8EncodeChar member with code | ⟨-, large⟩ <;> omega

/-- No other character contains a separating byte. -/
theorem not_mem_blankBytes {c : Char} (visible : isBlank c = false) :
    ∀ byte ∈ String.utf8EncodeChar c, byte ∉ blankBytes := by
  intro byte member
  rw [mem_blankBytes_iff]
  rw [← Bool.not_eq_true, Lexer.isBlank_iff] at visible
  rcases toNat_of_mem_utf8EncodeChar member with code | ⟨high, -⟩ <;> omega

/-- From the size of the front on, the bytes of a text are those of its back. -/
theorem mem_encode_of_le {front back : List Char} {index : Nat} {byte : UInt8}
    (behind : utf8Size front ≤ index) (found : (encode (front ++ back))[index]? = some byte) :
    byte ∈ encode back := by
  rw [encode_append, List.getElem?_append_right (by simpa using behind)] at found
  exact List.mem_of_getElem? found

/-- Before the size of the front, the bytes of a text are those of its front. -/
theorem getElem?_encode_of_lt {front back : List Char} {index : Nat}
    (inFront : index < utf8Size front) :
    (encode (front ++ back))[index]? = (encode front)[index]? := by
  rw [encode_append, List.getElem?_append_left (by simpa using inFront)]

/-- The byte behind a front is one of the character that follows. -/
theorem mem_utf8EncodeChar_of_getElem? {front back : List Char} {c : Char} {byte : UInt8}
    (found : (encode (front ++ c :: back))[utf8Size front]? = some byte) :
    byte ∈ String.utf8EncodeChar c := by
  have inFront : utf8Size front < utf8Size (front ++ [c]) := by
    have := c.utf8Size_pos
    rw [utf8Size_append, utf8Size_cons]
    omega
  rw [List.append_cons, getElem?_encode_of_lt inFront] at found
  simpa [encode] using mem_encode_of_le (Nat.le_refl _) found

/-- The bytes of blanks are separating bytes. -/
theorem mem_blankBytes_of_blank {blanks : List Char} (blank : ∀ c ∈ blanks, isBlank c = true) :
    ∀ byte ∈ encode blanks, byte ∈ blankBytes := by
  intro byte member
  obtain ⟨c, inside, byteOf⟩ := List.mem_flatMap.mp member
  exact mem_blankBytes_of_isBlank (blank c inside) byte byteOf

/-- The bytes of the middle part of a text are those between its positions. -/
theorem encode_slice (front part back : List Char) :
    ((encode (front ++ part ++ back)).drop (utf8Size front)).take (utf8Size part) =
      encode part := by
  rw [List.append_assoc, encode_append, ← length_encode front, List.drop_left, encode_append,
    ← length_encode part, List.take_left]

end Text

end FrontEnd
