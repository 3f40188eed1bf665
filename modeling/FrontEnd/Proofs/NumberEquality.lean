/-
Module: FrontEnd.Proofs.NumberEquality
Layer: Proofs
Purpose: Equality of floating-point numbers. Two words are equal if and only if they stand for one
  number or one infinity: a word that is no number is not even equal to itself, and apart from the
  two zeros equal words are the same.
Imports: FrontEnd.Proofs.RoundingIntervals
Trusted boundary: none
Main exports: Binary64.Value, Binary64.value?, Binary64.unitsAt_strictMono,
  Binary64.equals_iff_value, Binary64.withPlusZero, Binary64.equals_iff
Open obligations: none
-/
import FrontEnd.Proofs.RoundingIntervals

namespace FrontEnd

namespace Binary64

/-! ### What words stand for -/

/-- A number, or one of the two infinities. -/
inductive Value where
  | finite (number : ℚ)
  | infinite (isNegative : Bool)

/-- A finite number with its sign. -/
def signed (number : Binary64) : ℚ :=
  (if number.isNegative then -1 else 1) * (number.significand * 2 ^ number.power)

/-- What a word stands for, unless it is no number. -/
def value? (number : Binary64) : Option Value :=
  if number.isNaN then none
  else if number.isInfinite then some (.infinite number.isNegative)
  else some (.finite number.signed)

/-- A magnitude as a number, in units of the smallest one, `2 ^ -1074`. -/
def unitsAt (magnitude : Nat) : Nat :=
  significandAt magnitude * 2 ^ (magnitude / exponentWeight - 1)

/-- Each number lies between its marks, so larger magnitudes are larger numbers. -/
theorem unitsAt_strictMono : StrictMono unitsAt := by
  refine strictMono_nat_of_lt_succ fun magnitude => ?_
  have positive (field : Nat) : 0 < 2 ^ (field - 1) := Nat.pow_pos (by decide)
  have above : 4 * unitsAt magnitude < upperMark magnitude := by
    rw [unitsAt, upperMark, ← Nat.mul_assoc]
    exact Nat.mul_lt_mul_of_pos_right (by omega) (positive _)
  have below : lowerMark (magnitude + 1) ≤ 4 * unitsAt (magnitude + 1) := by
    rw [unitsAt, lowerMark, ← Nat.mul_assoc]
    exact Nat.mul_le_mul_right _ (Nat.sub_le ..)
  rw [upperMark_eq] at above
  omega

theorem unitsAt_zero : unitsAt 0 = 0 := rfl

variable {left right number : Binary64}

/-- A finite number is that many units. -/
theorem significand_mul_power (number : Binary64) :
    (number.significand : ℚ) * 2 ^ number.power = unitsAt number.magnitude * 2 ^ (-1074 : ℤ) := by
  rw [significand_eq, power_eq, unitsAt, sub_eq_add_neg, zpow_add₀ two_ne_zero, zpow_natCast,
    Nat.cast_mul, Nat.cast_pow, Nat.cast_ofNat, mul_assoc]

theorem isZero_iff : number.isZero = true ↔ number.magnitude = 0 := by
  simp only [isZero, exponentField_eq, fractionField_eq, Bool.and_eq_true, beq_iff_eq,
    exponentWeight]
  omega

/-- The infinities have one magnitude. -/
theorem magnitude_of_isInfinite (infinite : number.isInfinite = true) :
    number.magnitude = 2047 * exponentWeight := by
  simp only [isInfinite, exponentField_eq, fractionField_eq, Bool.and_eq_true, beq_iff_eq,
    exponentWeight] at *
  omega

theorem finite_of_isZero (zero : number.isZero = true) :
    number.isNaN = false ∧ number.isInfinite = false := by
  simp [isNaN, isInfinite, exponentField_eq, isZero_iff.mp zero]

/-- The sign of zero makes no difference. -/
theorem signed_of_isZero (zero : number.isZero = true) : number.signed = 0 := by
  rw [signed, significand_mul_power, isZero_iff.mp zero, unitsAt_zero]
  simp

/-- Words of one finite number are the same, or both zero. -/
theorem eq_of_signed_eq (same : left.signed = right.signed) :
    left = right ∨ (left.isZero = true ∧ right.isZero = true) := by
  rw [signed, signed, significand_mul_power, significand_mul_power, ← mul_assoc, ← mul_assoc,
    mul_left_inj' (zpow_ne_zero _ two_ne_zero)] at same
  have units : (if left.isNegative then -1 else 1) * (unitsAt left.magnitude : ℤ)
      = (if right.isNegative then -1 else 1) * (unitsAt right.magnitude : ℤ) := by
    exact_mod_cast same
  by_cases signs : left.isNegative = right.isNegative
  · left
    rw [signs] at units
    refine eq_of_magnitude_eq signs (unitsAt_strictMono.injective ?_)
    split at units
    · omega
    · omega
  · right
    -- Numbers of different signs are equal only at zero.
    have zero (number : Binary64) : number.isZero = true ↔ unitsAt number.magnitude = 0 :=
      isZero_iff.trans (unitsAt_strictMono.injective.eq_iff' unitsAt_zero).symm
    rw [zero, zero]
    rw [Bool.eq_not_of_ne signs] at units
    cases sign : right.isNegative with
    | false =>
        simp only [sign, Bool.not_false, if_true, Bool.false_eq_true, if_false] at units
        omega
    | true =>
        simp only [sign, Bool.not_true, if_true, Bool.false_eq_true, if_false] at units
        omega

theorem value?_eq (real : number.isNaN = false) :
    number.value? =
      some (if number.isInfinite then .infinite number.isNegative else .finite number.signed) := by
  rw [value?, if_neg (by simp [real])]
  split
  · rfl
  · rfl

theorem isNaN_of_value? {value : Value} (stands : number.value? = some value) :
    number.isNaN = false := by
  rw [← Bool.not_eq_true]
  intro none
  rw [value?, if_pos none] at stands
  cases stands

/-- Words are equal if and only if they stand for one number or for one infinity. -/
theorem equals_iff_value :
    left.equals right = true ↔ ∃ value, left.value? = some value ∧ right.value? = some value := by
  simp only [equals, Bool.and_eq_true, Bool.not_eq_true', Bool.or_eq_true, beq_iff_eq]
  constructor
  · rintro ⟨⟨real, real'⟩, rfl | ⟨zero, zero'⟩⟩
    · exact ⟨_, value?_eq real, value?_eq real⟩
    · refine ⟨.finite 0, ?_, ?_⟩
      · rw [value?_eq real, (finite_of_isZero zero).2, signed_of_isZero zero]
        rfl
      · rw [value?_eq real', (finite_of_isZero zero').2, signed_of_isZero zero']
        rfl
  · rintro ⟨value, stands, stands'⟩
    have real := isNaN_of_value? stands
    have real' := isNaN_of_value? stands'
    refine ⟨⟨real, real'⟩, ?_⟩
    rw [value?_eq real, ← stands', value?_eq real', Option.some.injEq] at stands
    cases infinite : left.isInfinite with
    | true =>
        cases infinite' : right.isInfinite with
        | true =>
            rw [infinite, infinite', if_pos rfl, if_pos rfl, Value.infinite.injEq] at stands
            left
            refine eq_of_magnitude_eq stands ?_
            rw [magnitude_of_isInfinite infinite, magnitude_of_isInfinite infinite']
        | false => simp [infinite, infinite'] at stands
    | false =>
        cases infinite' : right.isInfinite with
        | true => simp [infinite, infinite'] at stands
        | false =>
            simp only [infinite, infinite', Bool.false_eq_true, if_false,
              Value.finite.injEq] at stands
            exact eq_of_signed_eq stands

/-! ### The two zeros -/

/-- Zero, with the plus sign. -/
def plusZero : Binary64 where
  bits := 0

/-- Zero, with the minus sign. -/
def minusZero : Binary64 where
  bits := 0x8000000000000000

/-- The number, with the plus sign if it is zero. -/
def withPlusZero (number : Binary64) : Binary64 :=
  if number = minusZero then plusZero else number

theorem isZero_iff_eq : number.isZero = true ↔ number = plusZero ∨ number = minusZero := by
  constructor
  · intro zero
    have magnitude := isZero_iff.mp zero
    cases sign : number.isNegative with
    | false => exact Or.inl (eq_of_magnitude_eq (sign.trans rfl) (magnitude.trans rfl))
    | true => exact Or.inr (eq_of_magnitude_eq (sign.trans rfl) (magnitude.trans rfl))
  · rintro (rfl | rfl)
    · decide
    · decide

theorem isNaN_withPlusZero (number : Binary64) : number.withPlusZero.isNaN = number.isNaN := by
  rw [withPlusZero]
  split
  · rename_i zero
    rw [zero]
    decide
  · rfl

theorem withPlusZero_eq_iff :
    left.withPlusZero = right.withPlusZero ↔
      left = right ∨ (left.isZero = true ∧ right.isZero = true) := by
  rw [isZero_iff_eq, isZero_iff_eq, withPlusZero, withPlusZero]
  by_cases minus : left = minusZero
  · by_cases minus' : right = minusZero
    · simp [minus, minus']
    · simp [minus, minus', eq_comm]
  · by_cases minus' : right = minusZero
    · simp [minus, minus']
    · simp only [minus, minus', if_false, or_false, iff_self_or, and_imp]
      rintro rfl rfl
      rfl

/-- Words are equal if and only if they are the same, up to the sign of zero, and numbers at all. -/
theorem equals_iff :
    left.equals right = true ↔
      left.withPlusZero = right.withPlusZero ∧ left.isNaN = false := by
  have alike (same : left.withPlusZero = right.withPlusZero) : left.isNaN = right.isNaN := by
    rw [← isNaN_withPlusZero left, same, isNaN_withPlusZero]
  simp only [equals, Bool.and_eq_true, Bool.not_eq_true', Bool.or_eq_true, beq_iff_eq,
    ← withPlusZero_eq_iff]
  constructor
  · rintro ⟨⟨real, -⟩, same⟩
    exact ⟨same, real⟩
  · rintro ⟨same, real⟩
    exact ⟨⟨real, (alike same).symm.trans real⟩, same⟩

end Binary64

end FrontEnd
