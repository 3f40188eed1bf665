/-
Module: FrontEnd.Proofs.DecimalTexts
Layer: Proofs
Purpose: Reading decimal numbers back. Whatever the layout, the text of a decimal number is read as
  that number, and so the text of a floating-point number tells which number it is.
Imports: FrontEnd.Proofs.RoundingIntervals, FrontEnd.Proofs.TextCuts
Trusted boundary: none
Main exports: Decimal.ofText, Decimal.value_ofText_text, Binary64.canonical, Binary64.text_eq_iff
Open obligations: none
-/
import FrontEnd.Proofs.RoundingIntervals
import FrontEnd.Proofs.TextCuts

namespace FrontEnd

namespace Decimal

/-! ### Reading -/

/-- The decimal number that a text without an exponent is read as. -/
def ofMantissa (text : List Char) : Decimal :=
  let whole := text.takeWhile (· != '.')
  let fraction := (text.dropWhile (· != '.')).drop 1
  { digits := Nat.ofDigitChars 10 (whole ++ fraction) 0, exponent := -fraction.length }

/-- The power that a text behind the mark of an exponent is read as. Without a text, it is zero. -/
def ofPower : List Char → Int
  | '-' :: digits => -(Nat.ofDigitChars 10 digits 0 : Nat)
  | digits => (Nat.ofDigitChars 10 digits 0 : Nat)

/-- The decimal number that a text is read as. -/
def ofText (text : List Char) : Decimal :=
  let mantissa := ofMantissa (text.takeWhile (· != 'e'))
  let power := ofPower ((text.dropWhile (· != 'e')).drop 1)
  { mantissa with exponent := mantissa.exponent + power }

/-- An integer is read as that integer. -/
theorem ofPower_toString (power : Int) : ofPower (toString power).toList = power := by
  rw [Int.toString_eq_repr]
  cases power with
  | ofNat power =>
      have digit : ∀ digits, Nat.toDigits 10 power ≠ '-' :: digits := by
        intro digits eq
        have first := Text.isDigit_toDigits power '-' (eq ▸ List.mem_cons_self)
        exact absurd first (by decide)
      rw [Int.repr, Nat.toList_repr, ofPower.eq_2 _ digit, Nat.ofDigitChars_ten_toDigits]
      rfl
  | negSucc power =>
      rw [Int.repr, String.toList_append, Nat.toList_repr]
      change -((Nat.ofDigitChars 10 (Nat.toDigits 10 (power + 1)) 0 : ℕ) : ℤ) = _
      rw [Nat.ofDigitChars_ten_toDigits]
      rfl

theorem ne_point_of_isDigit {c : Char} (digit : c.isDigit = true) : (c != '.') = true := by
  rw [bne_iff_ne]
  rintro rfl
  exact absurd digit (by decide)

theorem ne_power_of_isDigit {c : Char} (digit : c.isDigit = true) : (c != 'e') = true := by
  rw [bne_iff_ne]
  rintro rfl
  exact absurd digit (by decide)

/-- A text in two parts with a point between them. -/
theorem ofMantissa_point {whole fraction : List Char} (digits : ∀ c ∈ whole, c.isDigit = true) :
    ofMantissa (whole ++ '.' :: fraction) =
      { digits := Nat.ofDigitChars 10 (whole ++ fraction) 0, exponent := -fraction.length } := by
  have inside : ∀ c ∈ whole, (c != '.') = true := fun c member =>
    ne_point_of_isDigit (digits c member)
  have stop : ∀ c ∈ ('.' :: fraction).head?, (c != '.') = false := by
    simp
  simp only [ofMantissa, Text.takeWhile_append_of_stop inside stop,
    Text.dropWhile_append_of_stop inside stop, List.drop_succ_cons, List.drop_zero]

/-- A text without a point. -/
theorem ofMantissa_whole {whole : List Char} (digits : ∀ c ∈ whole, c.isDigit = true) :
    ofMantissa whole = { digits := Nat.ofDigitChars 10 whole 0, exponent := 0 } := by
  have inside : ∀ c ∈ whole, (c != '.') = true := fun c member =>
    ne_point_of_isDigit (digits c member)
  simp only [ofMantissa, List.takeWhile_eq_self_iff.mpr inside,
    List.dropWhile_eq_nil_iff.mpr inside, List.drop_nil, List.append_nil]
  rfl

/-- A text without an exponent. -/
theorem ofText_mantissa {text : List Char} (plain : ∀ c ∈ text, (c != 'e') = true) :
    ofText text = ofMantissa text := by
  have none : ofPower [] = 0 := rfl
  simp only [ofText, List.takeWhile_eq_self_iff.mpr plain, List.dropWhile_eq_nil_iff.mpr plain,
    List.drop_nil, none, Int.add_zero]

/-- A text with an exponent. -/
theorem ofText_power {text : List Char} (plain : ∀ c ∈ text, (c != 'e') = true) (power : Int) :
    ofText (text ++ 'e' :: (toString power).toList) =
      { ofMantissa text with exponent := (ofMantissa text).exponent + power } := by
  have stop : ∀ c ∈ ('e' :: (toString power).toList).head?, (c != 'e') = false := by
    simp
  simp only [ofText, Text.takeWhile_append_of_stop plain stop,
    Text.dropWhile_append_of_stop plain stop, List.drop_succ_cons, List.drop_zero,
    ofPower_toString]

/-! ### Digits -/

theorem isDigit_replicate (count : Nat) : ∀ c ∈ List.replicate count '0', c.isDigit = true := by
  intro c member
  rw [List.eq_of_mem_replicate member]
  rfl

/-- Zeros behind digits multiply by ten. -/
theorem ofDigitChars_append_zeros (digits : List Char) (count : Nat) :
    Nat.ofDigitChars 10 (digits ++ List.replicate count '0') 0 =
      Nat.ofDigitChars 10 digits 0 * 10 ^ count := by
  rw [Nat.ofDigitChars_append, Nat.ofDigitChars_replicate_zero, Nat.mul_comm]

/-- Zeros before digits do not count. -/
theorem ofDigitChars_zeros_append (count : Nat) (digits : List Char) :
    Nat.ofDigitChars 10 (List.replicate count '0' ++ digits) 0 = Nat.ofDigitChars 10 digits 0 := by
  rw [Nat.ofDigitChars_append, Nat.ofDigitChars_replicate_zero, Nat.mul_zero]

/-! ### Reading what was written -/

/-- The characters of a number that is written positionally. -/
theorem mem_positional {digits : List Char} {exponent : Int} {c : Char}
    (inside : ∀ c ∈ digits, c.isDigit = true) (member : c ∈ positional digits exponent) :
    c.isDigit = true ∨ c = '.' := by
  unfold positional at member
  simp only at member
  split at member
  · simp only [List.mem_append, List.mem_cons, List.not_mem_nil, or_false] at member
    rcases member with (member | member) | rfl | rfl
    · exact Or.inl (inside c member)
    · exact Or.inl (isDigit_replicate _ c member)
    · exact Or.inr rfl
    · exact Or.inl rfl
  · split at member
    · simp only [List.mem_append, List.mem_cons, List.not_mem_nil, or_false] at member
      rcases member with ((rfl | rfl) | member) | member
      · exact Or.inl rfl
      · exact Or.inr rfl
      · exact Or.inl (isDigit_replicate _ c member)
      · exact Or.inl (inside c member)
    · simp only [List.mem_append, List.mem_cons] at member
      rcases member with member | rfl | member
      · exact Or.inl (inside c (List.mem_of_mem_take member))
      · exact Or.inr rfl
      · exact Or.inl (inside c (List.mem_of_mem_drop member))

/-- A number that is written positionally is read as that number. -/
theorem value_ofMantissa_positional {digits : List Char} (exponent : Int)
    (inside : ∀ c ∈ digits, c.isDigit = true) :
    (ofMantissa (positional digits exponent)).value =
      Nat.ofDigitChars 10 digits 0 * 10 ^ exponent := by
  unfold positional
  simp only
  split
  · rename_i large
    obtain ⟨count, rfl⟩ := Int.eq_ofNat_of_zero_le large
    have whole : ∀ c ∈ digits ++ List.replicate count '0', c.isDigit = true := by
      intro c member
      rcases List.mem_append.mp member with member | member
      · exact inside c member
      · exact isDigit_replicate count c member
    have zeros : digits ++ List.replicate count '0' ++ ['0']
        = digits ++ List.replicate (count + 1) '0' := by
      rw [List.replicate_succ', List.append_assoc]
    rw [Int.toNat_natCast, ofMantissa_point whole, zeros, ofDigitChars_append_zeros, value]
    simp only [List.length_singleton, Nat.cast_one, zpow_neg_one, zpow_natCast, Nat.cast_mul,
      Nat.cast_pow, Nat.cast_ofNat, pow_succ]
    field_simp
  · rename_i small
    split
    · rename_i tiny
      generalize zeros : (-(digits.length + exponent)).toNat = count
      have places : -(((List.replicate count '0' ++ digits).length : ℕ) : ℤ) = exponent := by
        rw [List.length_append, List.length_replicate]
        omega
      have point : ['0', '.'] ++ List.replicate count '0' ++ digits
          = List.replicate 1 '0' ++ '.' :: (List.replicate count '0' ++ digits) := rfl
      rw [point, ofMantissa_point (isDigit_replicate 1), places, ofDigitChars_zeros_append,
        ofDigitChars_zeros_append, value]
    · rename_i visible
      have whole : ∀ c ∈ digits.take (digits.length + exponent).toNat, c.isDigit = true :=
        fun c member => inside c (List.mem_of_mem_take member)
      have places : -(((digits.drop (digits.length + exponent).toNat).length : ℕ) : ℤ)
          = exponent := by
        rw [List.length_drop]
        omega
      rw [ofMantissa_point whole, places, List.take_append_drop, value]

/-- A number that is written with an exponent is read as that number. -/
theorem value_ofText_scientific {digits : List Char} (exponent : Int) (filled : digits ≠ [])
    (inside : ∀ c ∈ digits, c.isDigit = true) :
    (ofText (scientific digits exponent)).value =
      Nat.ofDigitChars 10 digits 0 * 10 ^ exponent := by
  obtain ⟨first, others, rfl⟩ := List.exists_cons_of_ne_nil filled
  have alone : ∀ c ∈ [first], c.isDigit = true := by
    intro c member
    exact inside c (List.mem_of_mem_take (i := 1) member)
  rw [scientific, List.take_succ_cons, List.take_zero, List.drop_succ_cons, List.drop_zero,
    List.length_cons]
  split
  · rename_i short
    obtain rfl : others = [] := List.eq_nil_of_length_eq_zero (by omega)
    have plain : ∀ c ∈ [first] ++ [], (c != 'e') = true := by
      intro c member
      exact ne_power_of_isDigit (alone c member)
    rw [ofText_power plain, List.append_nil, ofMantissa_whole alone, value]
    simp
  · have plain : ∀ c ∈ [first] ++ '.' :: others, (c != 'e') = true := by
      intro c member
      rcases List.mem_append.mp member with member | member
      · exact ne_power_of_isDigit (alone c member)
      · rcases List.mem_cons.mp member with rfl | member
        · rfl
        · exact ne_power_of_isDigit (inside c (List.mem_cons_of_mem first member))
    have places : -((others.length : ℕ) : ℤ) + (exponent + ((others.length + 1 : ℕ) : ℤ) - 1)
        = exponent := by
      omega
    rw [ofText_power plain, ofMantissa_point alone, value, places]
    rfl

/-- The text of a decimal number is read as that number. -/
theorem value_ofText_text (layout : DecimalLayout) (number : Decimal) :
    (ofText (number.text layout)).value = number.value := by
  have inside := Text.isDigit_toDigits number.digits
  unfold text
  simp only
  split
  · have plain : ∀ c ∈ positional (Nat.toDigits 10 number.digits) number.exponent,
        (c != 'e') = true := by
      intro c member
      rcases mem_positional inside member with digit | rfl
      · exact ne_power_of_isDigit digit
      · rfl
    rw [ofText_mantissa plain, value_ofMantissa_positional _ inside, Nat.ofDigitChars_ten_toDigits,
      value]
  · rw [value_ofText_scientific _ Nat.toDigits_ne_nil inside, Nat.ofDigitChars_ten_toDigits, value]

/-! ### What texts look like -/

/-- A number that is written begins with a digit. -/
theorem text_head (layout : DecimalLayout) (number : Decimal) :
    ∃ c rest, number.text layout = c :: rest ∧ c.isDigit = true := by
  obtain ⟨first, others, digits⟩ :=
    List.exists_cons_of_ne_nil (Nat.toDigits_ne_nil (n := number.digits) (b := 10))
  have digit : first.isDigit = true :=
    Text.isDigit_toDigits number.digits first (digits ▸ List.mem_cons_self)
  unfold text
  simp only [digits]
  split
  · unfold positional
    simp only
    split
    · exact ⟨first, _, rfl, digit⟩
    · split
      · exact ⟨'0', _, rfl, rfl⟩
      · rename_i visible
        obtain ⟨count, eq⟩ : ∃ count, ((first :: others).length + number.exponent).toNat
            = count + 1 := ⟨((first :: others).length + number.exponent).toNat - 1, by omega⟩
        rw [eq]
        exact ⟨first, _, rfl, digit⟩
  · exact ⟨first, _, rfl, digit⟩

/-- The characters of an integer. -/
theorem mem_toString {number : Int} {c : Char} (member : c ∈ (toString number).toList) :
    c.isDigit = true ∨ c = '-' := by
  rw [Int.toString_eq_repr] at member
  cases number with
  | ofNat number =>
      rw [Int.repr, Nat.toList_repr] at member
      exact Or.inl (Text.isDigit_toDigits number c member)
  | negSucc number =>
      rw [Int.repr, String.toList_append, Nat.toList_repr] at member
      rcases List.mem_append.mp member with member | member
      · exact Or.inr (List.mem_singleton.mp member)
      · exact Or.inl (Text.isDigit_toDigits _ c member)

/-- The characters of a number that is written. -/
theorem mem_text {layout : DecimalLayout} {number : Decimal} {c : Char}
    (member : c ∈ number.text layout) : c.isDigit = true ∨ c = '.' ∨ c = 'e' ∨ c = '-' := by
  have inside := Text.isDigit_toDigits number.digits
  unfold text at member
  simp only at member
  split at member
  · rcases mem_positional inside member with digit | point
    · exact Or.inl digit
    · exact Or.inr (Or.inl point)
  · rw [scientific] at member
    simp only [List.mem_append, List.mem_cons] at member
    rcases member with (member | member) | rfl | member
    · exact Or.inl (inside c (List.mem_of_mem_take member))
    · split at member
      · exact absurd member List.not_mem_nil
      · rcases List.mem_cons.mp member with rfl | member
        · exact Or.inr (Or.inl rfl)
        · exact Or.inl (inside c (List.mem_of_mem_drop member))
    · exact Or.inr (Or.inr (Or.inl rfl))
    · rcases mem_toString member with digit | rfl
      · exact Or.inl digit
      · exact Or.inr (Or.inr (Or.inr rfl))

end Decimal

/-! ### Floating-point numbers -/

namespace Binary64

/-- The word that stands for all those that are no number. -/
def nan : Binary64 where
  bits := 0x7ff8000000000000

/-- The number with all words that are no number made one. -/
def canonical (number : Binary64) : Binary64 :=
  if number.isNaN then nan else number

/-- The text of a number without its sign. -/
def unsignedText (number : Binary64) : List Char :=
  if number.isInfinite then ['i', 'n', 'f']
  else if number.isZero then ['0', '.', '0']
  else number.shortest.text layout

/-- The sign of a number as it is written. -/
def signText (number : Binary64) : List Char :=
  if number.isNegative then ['-'] else []

variable {number left right : Binary64}

theorem text_of_isNaN (none : number.isNaN = true) : number.text = "NaN" := by
  rw [text, if_pos none]

theorem text_of_number (real : number.isNaN = false) :
    number.text = String.ofList (number.signText ++ number.unsignedText) := by
  rw [text, real, if_neg Bool.false_ne_true, unsignedText, signText]
  split
  · rfl
  · split
    · rfl
    · rfl

/-- Without its sign, a number begins with a digit, unless it is infinite. -/
theorem unsignedText_head (number : Binary64) :
    ∃ c rest, number.unsignedText = c :: rest ∧ (c.isDigit = true ↔ number.isInfinite = false) ∧
      c ≠ '-' ∧ c ≠ 'N' := by
  unfold unsignedText
  split
  · rename_i infinite
    refine ⟨'i', _, rfl, ?_, by decide, by decide⟩
    rw [infinite]
    decide
  · rename_i finite
    have begins {c : Char} (digit : c.isDigit = true) :
        (c.isDigit = true ↔ number.isInfinite = false) ∧ c ≠ '-' ∧ c ≠ 'N' := by
      refine ⟨iff_of_true digit (Bool.not_eq_true _ ▸ finite), ?_, ?_⟩
      · rintro rfl
        exact absurd digit (by decide)
      · rintro rfl
        exact absurd digit (by decide)
    split
    · exact ⟨'0', _, rfl, begins rfl⟩
    · obtain ⟨c, rest, eq, digit⟩ := Decimal.text_head layout number.shortest
      exact ⟨c, rest, eq, begins digit⟩

/-- The text of a finite number is read as that number. -/
theorem readAs_unsignedText (finite : number.isInfinite = false) :
    ReadAs ((Decimal.ofText number.unsignedText).value * 2 ^ 1076) number.magnitude := by
  rw [unsignedText, finite, if_neg Bool.false_ne_true]
  split
  · rename_i zero
    have none : number.magnitude = 0 := by
      simp only [isZero, exponentField_eq, fractionField_eq, Bool.and_eq_true, beq_iff_eq] at zero
      rw [← Nat.div_add_mod number.magnitude exponentWeight, zero.1, zero.2,
        Nat.mul_zero]
    have nothing : Decimal.ofText ['0', '.', '0'] = { digits := 0, exponent := -1 } := by decide
    rw [none, nothing, Decimal.value, Nat.cast_zero, zero_mul, zero_mul]
    exact readAs_zero
  · rename_i filled
    rw [Decimal.value_ofText_text]
    exact readAs_shortest (Bool.not_eq_true _ ▸ filled)

/-- Numbers that are written alike but for their signs have one magnitude. -/
theorem magnitude_eq_of_unsignedText_eq (same : left.unsignedText = right.unsignedText) :
    left.magnitude = right.magnitude := by
  have kinds : left.isInfinite = right.isInfinite := by
    obtain ⟨c, rest, eq, digit, -⟩ := unsignedText_head left
    obtain ⟨d, rest', eq', digit', -⟩ := unsignedText_head right
    rw [eq, eq', List.cons.injEq] at same
    rw [same.1] at digit
    rw [Bool.eq_iff_iff, ← not_iff_not, Bool.not_eq_true, Bool.not_eq_true]
    exact digit.symm.trans digit'
  cases infinite : left.isInfinite with
  | true =>
      have infinite' := kinds ▸ infinite
      simp only [isInfinite, exponentField_eq, fractionField_eq, Bool.and_eq_true, beq_iff_eq]
        at infinite infinite'
      rw [← Nat.div_add_mod left.magnitude exponentWeight, infinite.1, infinite.2,
        ← Nat.div_add_mod right.magnitude exponentWeight, infinite'.1, infinite'.2]
  | false =>
      have one := readAs_unsignedText infinite
      have two := readAs_unsignedText (kinds ▸ infinite : right.isInfinite = false)
      rw [same] at one
      exact one.unique two

/-- Numbers that are written alike have one sign. -/
theorem signs_of_text_eq (same : left.signText ++ left.unsignedText
      = right.signText ++ right.unsignedText) :
    left.isNegative = right.isNegative ∧ left.unsignedText = right.unsignedText := by
  obtain ⟨c, rest, eq, -, unsigned, -⟩ := unsignedText_head left
  obtain ⟨d, rest', eq', -, unsigned', -⟩ := unsignedText_head right
  unfold signText at same
  cases sign : left.isNegative with
  | true =>
      cases sign' : right.isNegative with
      | true =>
          rw [sign, sign'] at same
          exact ⟨rfl, List.append_cancel_left same⟩
      | false =>
          rw [sign, sign', eq'] at same
          exact absurd (List.cons.inj same).1.symm unsigned'
  | false =>
      cases sign' : right.isNegative with
      | true =>
          rw [sign, sign', eq] at same
          exact absurd (List.cons.inj same).1 unsigned
      | false =>
          rw [sign, sign'] at same
          exact ⟨rfl, same⟩

/-- A number is not written like a word that is none. -/
theorem text_ne_of_isNaN (real : left.isNaN = false) (none : right.isNaN = true) :
    left.text ≠ right.text := by
  intro same
  obtain ⟨c, rest, eq, -, -, other⟩ := unsignedText_head left
  rw [text_of_number real, text_of_isNaN none, eq] at same
  have letters := congrArg String.toList same
  rw [String.toList_ofList, signText] at letters
  split at letters
  · exact absurd (List.cons.inj letters).1 (by decide)
  · exact other (List.cons.inj letters).1

/-- Only the words that are no number are written alike. -/
theorem text_eq_iff : left.text = right.text ↔ left.canonical = right.canonical := by
  have nan_isNaN : nan.isNaN = true := by decide
  cases first : left.isNaN with
  | true =>
      cases second : right.isNaN with
      | true =>
          rw [text_of_isNaN first, text_of_isNaN second, canonical, canonical, first, second]
          simp
      | false =>
          rw [canonical, canonical, first, second, if_pos rfl, if_neg Bool.false_ne_true]
          refine iff_of_false (text_ne_of_isNaN second first).symm ?_
          rintro rfl
          rw [nan_isNaN] at second
          exact absurd second nofun
  | false =>
      cases second : right.isNaN with
      | true =>
          rw [canonical, canonical, first, second, if_pos rfl, if_neg Bool.false_ne_true]
          refine iff_of_false (text_ne_of_isNaN first second) ?_
          rintro rfl
          rw [nan_isNaN] at first
          exact absurd first nofun
      | false =>
          rw [canonical, canonical, first, second, if_neg Bool.false_ne_true,
            if_neg Bool.false_ne_true]
          constructor
          · intro same
            rw [text_of_number first, text_of_number second, String.ofList_inj] at same
            obtain ⟨signs, alike⟩ := signs_of_text_eq same
            exact eq_of_magnitude_eq signs (magnitude_eq_of_unsignedText_eq alike)
          · rintro rfl
            rfl

theorem text_canonical (number : Binary64) : number.canonical.text = number.text := by
  rw [text_eq_iff]
  cases none : number.isNaN with
  | true =>
      have word : number.canonical = nan := by
        rw [canonical, none, if_pos rfl]
      rw [word]
      decide
  | false =>
      have itself : number.canonical = number := by
        rw [canonical, none, if_neg Bool.false_ne_true]
      rw [itself, itself]

/-- The text of a number stays within a line. -/
theorem newline_not_mem_text (number : Binary64) : '\n' ∉ number.text.toList := by
  cases real : number.isNaN with
  | true =>
      rw [text_of_isNaN real]
      decide
  | false =>
      rw [text_of_number real, String.toList_ofList, List.mem_append, signText, unsignedText]
      rintro (sign | member)
      · split at sign
        · exact absurd sign (by decide)
        · exact absurd sign List.not_mem_nil
      · split at member
        · exact absurd member (by decide)
        · split at member
          · exact absurd member (by decide)
          · have shape := Decimal.mem_text member
            exact absurd shape (by decide)

end Binary64

end FrontEnd
