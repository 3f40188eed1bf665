/-
Module: FrontEnd.Proofs.LeadBytes
Layer: Proofs
Purpose: What the first byte of a character tells about it. It tells how long the character is and
  what it begins, and for a character of ASCII it is the character; so bytes can be classed in place
  of characters.
Imports: FrontEnd.Lexer.Scanner, FrontEnd.Proofs.TextBytes
Trusted boundary: none
Main exports: Text.leadByte, Text.firstByte, Text.leadByte_eq_iff, Text.firstByte_eq_iff,
  Byte.width_leadByte, Byte.Tells, Byte.Tells.takeWhile_encode, Lead.agrees, Lead.ofByte_leadByte,
  fragmentBytes_encode
Open obligations: none
-/
import FrontEnd.Lexer.Scanner
import FrontEnd.Proofs.TextBytes

namespace FrontEnd

open Lexer (isBlank isNumberPart isWordPart isWordStart)
open Text (encode utf8Size)

/-! ### First bytes -/

namespace Text

/-- The first byte of a character. -/
def leadByte (c : Char) : UInt8 :=
  (String.utf8EncodeChar c).headD 0

/-- The first byte of a text, and zero if there is none. -/
def firstByte : List Char → UInt8
  | [] => 0
  | c :: _ => leadByte c

theorem utf8EncodeChar_eq_cons (c : Char) :
    ∃ others, String.utf8EncodeChar c = leadByte c :: others := by
  obtain ⟨byte, others, bytes⟩ := List.exists_cons_of_ne_nil (String.utf8EncodeChar_ne_nil (c := c))
  exact ⟨others, by rw [leadByte, bytes, List.headD_cons]⟩

theorem toNat_leadByte (c : Char) :
    (leadByte c).toNat = c.toNat ∨ (0x80 ≤ (leadByte c).toNat ∧ 0x80 ≤ c.toNat) := by
  obtain ⟨others, bytes⟩ := utf8EncodeChar_eq_cons c
  apply toNat_of_mem_utf8EncodeChar
  rw [bytes]
  exact List.mem_cons_self ..

theorem utf8Size_of_ascii {c : Char} (ascii : c.toNat < 0x80) : c.utf8Size = 1 :=
  Char.utf8Size_eq_one_iff.mpr (UInt32.le_iff_toNat_le.mpr (Nat.le_of_lt_succ ascii))

/-- A character of ASCII is its only byte. -/
theorem utf8EncodeChar_of_ascii {c : Char} (ascii : c.toNat < 0x80) :
    String.utf8EncodeChar c = [leadByte c] := by
  rw [leadByte, String.utf8EncodeChar_eq_singleton (utf8Size_of_ascii ascii), List.headD_cons]

theorem ofUInt8_leadByte {c : Char} (ascii : c.toNat < 0x80) : Char.ofUInt8 (leadByte c) = c := by
  apply Char.toNat_inj.mp
  rcases toNat_leadByte c with same | ⟨-, large⟩
  · exact same
  · omega

/-- The bytes of a text in ASCII are its characters. -/
theorem map_ofUInt8_encode {text : List Char} (ascii : ∀ c ∈ text, c.toNat < 0x80) :
    (encode text).map Char.ofUInt8 = text := by
  induction text with
  | nil =>
      rfl
  | cons c text ih =>
      have one : c.toNat < 0x80 := ascii c (List.mem_cons_self ..)
      rw [encode_cons, utf8EncodeChar_of_ascii one, List.map_append,
        ih fun d member => ascii d (List.mem_cons_of_mem c member), List.map_singleton,
        ofUInt8_leadByte one]
      rfl

/-- A first byte in ASCII tells the character. -/
theorem leadByte_eq_iff {c d : Char} (ascii : d.toNat < 0x80) : leadByte c = d.toUInt8 ↔ c = d := by
  have code : d.toUInt8.toNat = d.toNat := by
    have small : d.toUInt8.toNat = d.toNat % 2 ^ 8 := UInt32.toNat_toUInt8 d.val
    rw [small]
    omega
  have lead := toNat_leadByte c
  rw [← UInt8.toNat_inj, code, Lexer.eq_iff_toNat]
  omega

/-- The same holds of the first byte of a text, except for zero, which the empty text has, too. -/
theorem firstByte_eq_iff {d : Char} {text : List Char} (ascii : d.toNat < 0x80)
    (nonzero : d.toUInt8 ≠ 0) : firstByte text = d.toUInt8 ↔ text.head? = some d := by
  cases text with
  | nil =>
      simpa [firstByte] using nonzero.symm
  | cons c text =>
      rw [firstByte, leadByte_eq_iff ascii, List.head?_cons, Option.some.injEq]

end Text

open Text (leadByte firstByte)

/-! ### Classes of bytes -/

namespace Byte

theorem width_eq (byte : UInt8) :
    width byte =
      if 0xf0 ≤ byte.toNat ∧ byte.toNat ≤ 0xf7 then 4
      else if 0xe0 ≤ byte.toNat ∧ byte.toNat ≤ 0xef then 3
      else if 0xc0 ≤ byte.toNat ∧ byte.toNat ≤ 0xdf then 2
      else 1 := by
  simp [width, UInt8.le_iff_toNat_le]

/-- The first byte of a character tells how many bytes it has. -/
theorem width_leadByte (c : Char) : width (leadByte c) = c.utf8Size := by
  have range : c.val.toNat < 0x110000 := by
    have valid := c.valid
    simp only [UInt32.isValidChar, Nat.isValidChar] at valid
    omega
  rw [← String.length_utf8EncodeChar, width_eq, leadByte, String.utf8EncodeChar]
  -- One case for each length; the ranges of the first bytes are apart.
  repeat' split
  all_goals simp only [List.headD_cons, UInt8.toNat_ofNat'] at *
  all_goals first | rfl | omega

/-- A class of bytes stands for a class of characters of ASCII if the first byte of a character
    tells whether the character belongs to it. -/
structure Tells (ofByte : UInt8 → Bool) (ofChar : Char → Bool) : Prop where
  lead : ∀ c, ofByte (leadByte c) = ofChar c
  ascii : ∀ c, ofChar c = true → c.toNat < 0x80

namespace Tells

variable {ofByte : UInt8 → Bool} {ofChar : Char → Bool}

/-- Classes that hold the same codes below `0x80`. -/
theorem of_codes (codes : Nat → Prop) (below : ∀ code, codes code → code < 0x80)
    (byte : ∀ b, ofByte b = true ↔ codes b.toNat) (char : ∀ c, ofChar c = true ↔ codes c.toNat) :
    Tells ofByte ofChar := by
  constructor
  · intro c
    rw [Bool.eq_iff_iff, byte, char]
    rcases Text.toNat_leadByte c with same | ⟨largeByte, large⟩
    · rw [same]
    · constructor
      · intro member
        have := below _ member
        omega
      · intro member
        have := below _ member
        omega
  · intro c member
    exact below _ ((char c).mp member)

theorem takeWhile_encode (tells : Tells ofByte ofChar) (text : List Char) :
    (encode text).takeWhile ofByte = encode (text.takeWhile ofChar) := by
  induction text with
  | nil =>
      rfl
  | cons c text ih =>
      rw [Text.encode_cons]
      cases member : ofChar c with
      | true =>
          have lead : ofByte (leadByte c) = true := (tells.lead c).trans member
          rw [Text.utf8EncodeChar_of_ascii (tells.ascii c member), List.singleton_append,
            List.takeWhile_cons_of_pos lead, ih, List.takeWhile_cons_of_pos member,
            Text.encode_cons, Text.utf8EncodeChar_of_ascii (tells.ascii c member)]
          rfl
      | false =>
          have lead : ofByte (leadByte c) = false := (tells.lead c).trans member
          obtain ⟨others, bytes⟩ := Text.utf8EncodeChar_eq_cons c
          rw [bytes, List.cons_append, List.takeWhile_cons_of_neg (by simp [lead]),
            List.takeWhile_cons_of_neg (by simp [member])]
          rfl

theorem dropWhile_encode (tells : Tells ofByte ofChar) (text : List Char) :
    (encode text).dropWhile ofByte = encode (text.dropWhile ofChar) := by
  have bytes := List.takeWhile_append_dropWhile (p := ofByte) (l := encode text)
  have chars := congrArg encode (List.takeWhile_append_dropWhile (p := ofChar) (l := text))
  rw [tells.takeWhile_encode] at bytes
  rw [Text.encode_append] at chars
  exact List.append_cancel_left (bytes.trans chars.symm)

end Tells

theorem tells_isBlank : Tells isBlank Lexer.isBlank := by
  refine .of_codes (fun code => code = 32 ∨ code = 9 ∨ code = 13 ∨ code = 11 ∨ code = 12)
    ?_ ?_ fun _ => Lexer.isBlank_iff
  · intro code member
    omega
  · intro byte
    simp [isBlank, ByteClass.ofByte_eq_classify, ByteClass.classify, ← UInt8.toNat_inj, or_assoc]

theorem isDigit_iff {byte : UInt8} : isDigit byte = true ↔ 48 ≤ byte.toNat ∧ byte.toNat ≤ 57 := by
  simp [isDigit, ByteClass.ofByte_eq_classify, ByteClass.classify, UInt8.le_iff_toNat_le]

theorem isWordStart_iff {byte : UInt8} :
    isWordStart byte = true ↔
      (65 ≤ byte.toNat ∧ byte.toNat ≤ 90) ∨ (97 ≤ byte.toNat ∧ byte.toNat ≤ 122) ∨
        byte.toNat = 95 := by
  simp only [isWordStart, ByteClass.ofByte_eq_classify, ByteClass.classify,
    UInt8.le_iff_toNat_le, UInt8.reduceToNat, Bool.or_eq_true, Bool.and_eq_true, decide_eq_true_eq,
    beq_iff_eq, ← UInt8.toNat_inj]
  omega

theorem isWordPart_eq (byte : UInt8) : isWordPart byte = (isDigit byte || isWordStart byte) := by
  simp only [isWordPart, isWordStart, isDigit, ByteClass.ofByte_eq_classify]
  rfl

theorem tells_isDigit : Tells isDigit Char.isDigit := by
  refine .of_codes (fun code => 48 ≤ code ∧ code ≤ 57) ?_ (fun _ => isDigit_iff)
    fun _ => Lexer.isDigit_iff
  intro code member
  omega

theorem tells_isWordStart : Tells isWordStart Lexer.isWordStart := by
  refine .of_codes
    (fun code => (65 ≤ code ∧ code ≤ 90) ∨ (97 ≤ code ∧ code ≤ 122) ∨ code = 95)
    ?_ (fun _ => isWordStart_iff) fun _ => Lexer.isWordStart_iff
  intro code member
  omega

theorem tells_isWordPart : Tells isWordPart Lexer.isWordPart := by
  constructor
  · intro c
    rw [isWordPart_eq, tells_isDigit.lead, tells_isWordStart.lead, Bool.eq_iff_iff,
      Lexer.isWordPart_iff, Bool.or_eq_true, or_comm]
  · intro c part
    rcases Lexer.isWordPart_iff.mp part with start | digit
    · exact tells_isWordStart.ascii c start
    · exact tells_isDigit.ascii c digit

end Byte

/-! ### Marks by their first byte -/

namespace Symbol

/-- Symbols of two are written in ASCII, and none with the byte zero. -/
theorem ascii_of_ofPair? {c d : Char} {sign : Symbol} (known : ofPair? c d = some sign) :
    c.toNat < 0x80 ∧ d.toNat < 0x80 ∧ d.toUInt8 ≠ 0 := by
  unfold ofPair? at known
  split at known <;> cases known <;> decide

theorem ascii_of_ofChar? {c : Char} {sign : Symbol} (known : ofChar? c = some sign) :
    c.toNat < 0x80 := by
  unfold ofChar? at known
  split at known <;> cases known <;> decide

end Symbol

namespace Lead

/-- What a character begins, in terms of the symbols that begin with it. -/
def Agrees (c : Char) : Lead → Prop
  | .single sign => Symbol.ofChar? c = some sign ∧ ∀ d, Symbol.ofPair? c d = Option.none
  | .oneOrTwo second two one =>
      Symbol.ofChar? c = some one ∧
        ∀ d, Symbol.ofPair? c d = if d = second then some two else Option.none
  | .twoOnly second two =>
      Symbol.ofChar? c = Option.none ∧
        ∀ d, Symbol.ofPair? c d = if d = second then some two else Option.none
  | .none => Symbol.ofChar? c = Option.none ∧ ∀ d, Symbol.ofPair? c d = Option.none

theorem agrees (c : Char) : (ofChar c).Agrees c := by
  unfold ofChar
  split
  all_goals
    refine ⟨by simp [Symbol.ofChar?], fun d => ?_⟩
    unfold Symbol.ofPair?
    split <;> simp_all

/-- The first character of a symbol of two says what the second one is. -/
theorem ofChar_of_ofPair? {c d : Char} {sign : Symbol} (known : Symbol.ofPair? c d = some sign) :
    (∃ one, ofChar c = .oneOrTwo d sign one) ∨ ofChar c = .twoOnly d sign := by
  have agrees := agrees c
  cases lead : ofChar c with
  | single single =>
      rw [lead] at agrees
      cases (agrees.2 d).symm.trans known
  | oneOrTwo second two one =>
      rw [lead] at agrees
      have same := (agrees.2 d).symm.trans known
      split at same
      · rename_i second
        cases same
        exact Or.inl ⟨one, by rw [second]⟩
      · cases same
  | twoOnly second two =>
      rw [lead] at agrees
      have same := (agrees.2 d).symm.trans known
      split at same
      · rename_i second
        cases same
        exact Or.inr (by rw [second])
      · cases same
  | none =>
      rw [lead] at agrees
      cases (agrees.2 d).symm.trans known

/-- No character outside of ASCII begins a symbol. -/
theorem ofChar_of_large {c : Char} (large : 0x80 ≤ c.toNat) : ofChar c = .none := by
  have known := agrees c
  have noChar {sign : Symbol} (one : Symbol.ofChar? c = some sign) : False :=
    Nat.not_lt_of_le large (Symbol.ascii_of_ofChar? one)
  cases lead : ofChar c with
  | single sign =>
      rw [lead] at known
      exact (noChar known.1).elim
  | oneOrTwo second two one =>
      rw [lead] at known
      exact (noChar known.1).elim
  | twoOnly second two =>
      rw [lead] at known
      have pair : Symbol.ofPair? c second = some two := (known.2 second).trans (if_pos rfl)
      exact absurd (Symbol.ascii_of_ofPair? pair).1 (Nat.not_lt_of_le large)
  | none =>
      rfl

/-- The first byte of a character begins what the character begins. -/
theorem ofByte_leadByte (c : Char) : ofByte (leadByte c) = ofChar c := by
  by_cases ascii : c.toNat < 0x80
  · rw [ofByte, Text.ofUInt8_leadByte ascii]
  · have large : 0x80 ≤ c.toNat := Nat.le_of_not_lt ascii
    have largeByte : 0x80 ≤ (Char.ofUInt8 (leadByte c)).toNat := by
      rcases Text.toNat_leadByte c with same | ⟨known, -⟩
      · exact large.trans_eq same.symm
      · exact known
    rw [ofByte, ofChar_of_large large, ofChar_of_large largeByte]

end Lead

/-! ### Number fragments by their bytes -/

/-- Digits and points begin with digits. -/
theorem takeWhile_isNumberPart_eq (text : List Char) :
    text.takeWhile isNumberPart =
      text.takeWhile Char.isDigit ++ (text.dropWhile Char.isDigit).takeWhile isNumberPart := by
  have inside : ∀ d ∈ text.takeWhile Char.isDigit, isNumberPart d = true := by
    intro d member
    have digit : d.isDigit = true := List.mem_takeWhile_imp member
    simp [isNumberPart, digit]
  rw [← List.takeWhile_append_of_pos inside, List.takeWhile_append_dropWhile]

/-- The digits in a fragment and in those behind it. -/
theorem filter_isDigit_fragment (text : List Char) :
    (('.' :: text).takeWhile isNumberPart).filter Char.isDigit =
      text.takeWhile Char.isDigit ++
        ((text.dropWhile Char.isDigit).takeWhile isNumberPart).filter Char.isDigit := by
  have inside : ∀ d ∈ text.takeWhile Char.isDigit, d.isDigit = true :=
    fun _ member => List.mem_takeWhile_imp member
  rw [List.takeWhile_cons_of_pos rfl, takeWhile_isNumberPart_eq,
    List.filter_cons_of_neg (by decide), List.filter_append, List.filter_eq_self.mpr inside]

/-- The bytes of a fragment are those of a point and the digits behind it. -/
theorem fragmentBytes_encode_cons (c : Char) (text : List Char) :
    fragmentBytes (encode (c :: text)) =
      if c = '.' then
        (1 + utf8Size (text.takeWhile Char.isDigit)
            + (fragmentBytes (encode (text.dropWhile Char.isDigit))).1,
          text.takeWhile Char.isDigit
            ++ (fragmentBytes (encode (text.dropWhile Char.isDigit))).2)
      else (0, []) := by
  obtain ⟨others, bytes⟩ := Text.utf8EncodeChar_eq_cons c
  have lead : leadByte c = '.'.toUInt8 ↔ c = '.' := Text.leadByte_eq_iff (by decide)
  by_cases point : c = '.'
  · have ascii : ∀ d ∈ text.takeWhile Char.isDigit, d.toNat < 0x80 :=
      fun d member => Byte.tells_isDigit.ascii d (List.mem_takeWhile_imp member)
    rw [if_pos point, Text.encode_cons, point, Text.utf8EncodeChar_of_ascii (by decide),
      List.singleton_append, fragmentBytes, if_pos (by decide)]
    simp only [Byte.tells_isDigit.takeWhile_encode, Byte.tells_isDigit.dropWhile_encode,
      Text.length_encode, Text.map_ofUInt8_encode ascii]
  · rw [if_neg point, Text.encode_cons, bytes, List.cons_append, fragmentBytes,
      if_neg (mt lead.mp point)]

/-- The bytes of number fragments are those of the digits and points at the front of a text, unless
    it begins with a digit. -/
theorem fragmentBytes_encode {text : List Char} (stop : ∀ d ∈ text.head?, d.isDigit = false) :
    fragmentBytes (encode text) =
      (utf8Size (text.takeWhile isNumberPart),
        (text.takeWhile isNumberPart).filter Char.isDigit) := by
  -- Each fragment ends before the next point or before the first character that is no part of one.
  induction size : text.length using Nat.strong_induction_on generalizing text with
  | _ length ih =>
      cases text with
      | nil =>
          simp [encode, fragmentBytes]
      | cons c text =>
          rw [fragmentBytes_encode_cons]
          split
          · rename_i point
            subst point
            have shorter : (text.dropWhile Char.isDigit).length < length := by
              have suffix := (List.dropWhile_suffix Char.isDigit (l := text)).length_le
              rw [← size, List.length_cons]
              omega
            rw [ih _ shorter (Text.stop_dropWhile Char.isDigit text) rfl, filter_isDigit_fragment,
              List.takeWhile_cons_of_pos rfl, takeWhile_isNumberPart_eq text, Text.utf8Size_cons,
              Text.utf8Size_append, ← Nat.add_assoc]
            rfl
          · rename_i point
            have other : isNumberPart c = false := by
              simp [isNumberPart, point, stop c rfl]
            rw [List.takeWhile_cons_of_neg (by simp [other])]
            rfl

end FrontEnd
