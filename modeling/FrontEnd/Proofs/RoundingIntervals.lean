/-
Module: FrontEnd.Proofs.RoundingIntervals
Layer: Proofs
Purpose: Which decimal numbers are read as which floating-point number. The intervals of the
  floating-point numbers stand side by side, the end between two of them belongs to the even one,
  and the shortest decimal form of a number lies in its own interval. Hence it lies in no other.
Imports: FrontEnd.Number.Shortest
Trusted boundary: none
Main exports: Decimal.value, RoundingInterval.contains_iff, Binary64.lowerMark,
  Binary64.ReadAs.unique, Binary64.readAs_shortest
Open obligations: none
-/
import Mathlib.Algebra.Order.Field.Power
import Mathlib.Data.Rat.Cast.Order
import Mathlib.Order.Monotone.Basic
import Mathlib.Tactic.FieldSimp
import Mathlib.Tactic.Linarith
import Mathlib.Tactic.Positivity
import Mathlib.Tactic.Ring
import FrontEnd.Number.Shortest

namespace FrontEnd

/-! ### Decimal numbers -/

namespace Decimal

/-- A decimal number as a fraction. -/
def value (number : Decimal) : ℚ :=
  number.digits * 10 ^ number.exponent

/-- Zeros at the end of the digits do not count. -/
theorem value_trim (number : Decimal) : number.trim.value = number.value := by
  fun_induction trim number with
  | case1 number zeros ih =>
      have split : number.digits = number.digits / 10 * 10 := by omega
      have split' : (number.digits : ℚ) = ((number.digits / 10 : ℕ) : ℚ) * 10 := by
        exact_mod_cast split
      rw [ih, value, value, split', zpow_add_one₀ (by norm_num)]
      ring
  | case2 number full =>
      rfl

end Decimal

/-! ### Intervals -/

/-- Whether a number lies between two bounds, which belong to the range if it is closed. -/
def InRange (closed : Bool) (low high number : ℚ) : Prop :=
  if closed then low ≤ number ∧ number ≤ high else low < number ∧ number < high

namespace InRange

variable {closed : Bool} {low high number : ℚ}

theorem le (inside : InRange closed low high number) : low ≤ number ∧ number ≤ high := by
  cases closed with
  | true =>
      exact inside
  | false =>
      exact ⟨le_of_lt inside.1, le_of_lt inside.2⟩

theorem of_lt (above : low < number) (below : number < high) : InRange closed low high number := by
  cases closed with
  | true =>
      exact ⟨le_of_lt above, le_of_lt below⟩
  | false =>
      exact ⟨above, below⟩

/-- An end of the range that is reached belongs to it. -/
theorem closed_of_eq (inside : InRange closed low high number)
    (reached : number = low ∨ number = high) :
    closed = true := by
  cases closed with
  | true =>
      rfl
  | false =>
      obtain ⟨above, below⟩ : low < number ∧ number < high := inside
      rcases reached with rfl | rfl
      · exact absurd above (lt_irrefl _)
      · exact absurd below (lt_irrefl _)

/-- The unit of measurement does not matter. -/
theorem scale_iff {unit : ℚ} (positive : 0 < unit) :
    InRange closed (low * unit) (high * unit) (number * unit) ↔ InRange closed low high number := by
  cases closed with
  | true =>
      simp only [InRange, if_true, mul_le_mul_iff_left₀ positive]
  | false =>
      simp only [InRange, Bool.false_eq_true, if_false, mul_lt_mul_iff_left₀ positive]

end InRange

namespace RoundingInterval

theorem powerOfTen_pos (exponent : Int) : 0 < (powerOfTen exponent).2 := by
  unfold powerOfTen
  split
  · exact Nat.one_pos
  · exact Nat.pow_pos (by decide)

/-- A power of ten is the quotient of its two parts. -/
theorem powerOfTen_eq (exponent : Int) :
    ((powerOfTen exponent).1 : ℚ) = 10 ^ exponent * ((powerOfTen exponent).2 : ℚ) := by
  unfold powerOfTen
  split
  · rename_i large
    obtain ⟨count, rfl⟩ := Int.eq_ofNat_of_zero_le large
    simp
  · rename_i small
    obtain ⟨count, rfl⟩ : ∃ count : Nat, exponent = -(count : Int) :=
      ⟨(-exponent).toNat, by omega⟩
    simp

/-- An interval contains a decimal number if it lies between the bounds. -/
theorem contains_iff (interval : RoundingInterval) (number : Decimal) :
    interval.contains number = true ↔
      InRange interval.closed interval.low interval.high (number.value * interval.unit) := by
  have positive : (0 : ℚ) < (powerOfTen number.exponent).2 := by
    exact_mod_cast powerOfTen_pos number.exponent
  have place : ((number.digits * (powerOfTen number.exponent).1 * interval.unit : ℕ) : ℚ)
      = number.value * interval.unit * (powerOfTen number.exponent).2 := by
    push_cast
    rw [powerOfTen_eq, Decimal.value]
    ring
  rw [← InRange.scale_iff positive, ← place]
  unfold contains InRange
  simp only
  split
  · simp only [Bool.and_eq_true, decide_eq_true_eq]
    norm_cast
  · simp only [Bool.and_eq_true, decide_eq_true_eq]
    norm_cast

/-- What is found on a grid lies in the interval. -/
theorem contains_of_onGrid? {interval : RoundingInterval} {exponent : Int} {number : Decimal}
    (found : interval.onGrid? exponent = some number) : interval.contains number = true := by
  unfold onGrid? at found
  simp only at found
  split at found
  · rename_i lower upper
    split at found
    · exact Option.some.inj found ▸ lower
    · exact Option.some.inj found ▸ upper
  · rename_i lower upper
    exact Option.some.inj found ▸ lower
  · rename_i lower upper
    exact Option.some.inj found ▸ upper
  · exact absurd found nofun

end RoundingInterval

/-! ### Words without their sign -/

namespace Binary64

/-- The word of a number without its sign bit. Larger numbers have larger ones. -/
def magnitude (number : Binary64) : Nat :=
  number.bits.toNat % signWeight

theorem exponentField_eq (number : Binary64) :
    number.exponentField = number.magnitude / exponentWeight := by
  simp only [exponentField, magnitude, exponentWeight, signWeight]
  omega

theorem fractionField_eq (number : Binary64) :
    number.fractionField = number.magnitude % exponentWeight := by
  simp only [fractionField, magnitude, exponentWeight, signWeight]
  omega

/-- A word is its sign and its magnitude. -/
theorem eq_of_magnitude_eq {left right : Binary64} (signs : left.isNegative = right.isNegative)
    (magnitudes : left.magnitude = right.magnitude) : left = right := by
  obtain ⟨left⟩ := left
  obtain ⟨right⟩ := right
  have bound := left.toNat_lt
  have bound' := right.toNat_lt
  rw [isNegative, isNegative, decide_eq_decide] at signs
  simp only [magnitude, signWeight] at signs magnitudes
  have words : left.toNat = right.toNat := by omega
  rw [UInt64.toNat_inj.mp words]

/-! ### Marks between neighbors -/

/-- The significand that belongs to a magnitude. -/
def significandAt (magnitude : Nat) : Nat :=
  if magnitude / exponentWeight = 0 then magnitude % exponentWeight
  else exponentWeight + magnitude % exponentWeight

/-- The mark below a number, half the way to its neighbor. Marks are measured in units of
    `2 ^ -1076`, a quarter of the smallest number. -/
def lowerMark (magnitude : Nat) : Nat :=
  (4 * significandAt magnitude
      - if magnitude % exponentWeight = 0 ∧ 1 < magnitude / exponentWeight then 1 else 2)
    * 2 ^ (magnitude / exponentWeight - 1)

/-- The mark above a number. -/
def upperMark (magnitude : Nat) : Nat :=
  (4 * significandAt magnitude + 2) * 2 ^ (magnitude / exponentWeight - 1)

/-- The intervals leave no gaps and do not overlap: the mark above a number is the one below the
    next. -/
theorem upperMark_eq (magnitude : Nat) : upperMark magnitude = lowerMark (magnitude + 1) := by
  have positive : 0 < exponentWeight := by decide
  by_cases carry : (magnitude + 1) % exponentWeight = 0
  · have fraction : magnitude % exponentWeight = exponentWeight - 1 := by
      simp only [exponentWeight] at carry ⊢
      omega
    have exponent : (magnitude + 1) / exponentWeight = magnitude / exponentWeight + 1 := by
      simp only [exponentWeight] at carry ⊢
      omega
    rw [upperMark, lowerMark, significandAt, significandAt, exponent, fraction, carry,
      Nat.add_sub_cancel, if_neg (Nat.succ_ne_zero _)]
    rcases Nat.eq_zero_or_pos (magnitude / exponentWeight) with subnormal | normal
    · -- The significand gains its leading bit, and the distances stay as they are.
      rw [subnormal]
      decide
    · -- From here on, the distances are twice as large.
      obtain ⟨field, eq⟩ : ∃ field, magnitude / exponentWeight = field + 1 :=
        ⟨magnitude / exponentWeight - 1, by omega⟩
      rw [eq, if_neg (Nat.succ_ne_zero field), if_pos ⟨rfl, by omega⟩, Nat.add_sub_cancel,
        Nat.pow_succ]
      simp only [exponentWeight]
      omega
  · have fraction : (magnitude + 1) % exponentWeight = magnitude % exponentWeight + 1 := by
      simp only [exponentWeight] at carry ⊢
      omega
    have exponent : (magnitude + 1) / exponentWeight = magnitude / exponentWeight := by
      simp only [exponentWeight] at carry ⊢
      omega
    have significand : significandAt (magnitude + 1) = significandAt magnitude + 1 := by
      simp only [significandAt, exponent, fraction]
      split
      · rfl
      · rfl
    rw [upperMark, lowerMark, significand, exponent, if_neg (fun narrow => carry narrow.1)]
    rfl

theorem lowerMark_strictMono : StrictMono lowerMark := by
  refine strictMono_nat_of_lt_succ fun magnitude => ?_
  rw [← upperMark_eq]
  refine Nat.mul_lt_mul_of_pos_right ?_ (Nat.pow_pos (by decide))
  omega

/-- A magnitude is even if its significand is. -/
theorem significandAt_mod_two (magnitude : Nat) : significandAt magnitude % 2 = magnitude % 2 := by
  rw [significandAt]
  split
  · simp only [exponentWeight]
    omega
  · simp only [exponentWeight]
    omega

/-! ### Reading a number -/

/-- A number in units of `2 ^ -1076` is read as the one with a magnitude: it lies between the marks
    of that one, and on one of them only if the magnitude is even. -/
def ReadAs (number : ℚ) (magnitude : Nat) : Prop :=
  InRange (magnitude % 2 == 0) (lowerMark magnitude) (lowerMark (magnitude + 1)) number

/-- A number that is read as one magnitude is not read as a larger one. -/
theorem ReadAs.not_lt {number : ℚ} {first second : Nat} (one : ReadAs number first)
    (two : ReadAs number second) : ¬ first < second := by
  intro smaller
  -- A larger magnitude has its marks above, so the number could only be a mark of both. Then both
  -- magnitudes would be even, and could not be neighbors.
  have below : number ≤ lowerMark (first + 1) := one.le.2
  have above : (lowerMark second : ℚ) ≤ number := two.le.1
  have marks : lowerMark second ≤ lowerMark (first + 1) := by
    exact_mod_cast le_trans above below
  have next : second = first + 1 := by
    have reached := lowerMark_strictMono.le_iff_le.mp marks
    omega
  subst next
  have shared : number = lowerMark (first + 1) := le_antisymm below above
  have even := one.closed_of_eq (Or.inr shared)
  have even' := two.closed_of_eq (Or.inl shared)
  rw [beq_iff_eq] at even even'
  omega

/-- No number is read as two. -/
theorem ReadAs.unique {number : ℚ} {first second : Nat} (one : ReadAs number first)
    (two : ReadAs number second) : first = second :=
  Nat.le_antisymm (Nat.le_of_not_lt (two.not_lt one)) (Nat.le_of_not_lt (one.not_lt two))

theorem readAs_zero : ReadAs 0 0 :=
  ⟨le_of_eq (by decide), by positivity⟩

/-! ### The shortest form -/

theorem significand_eq (number : Binary64) :
    number.significand = significandAt number.magnitude := by
  rw [significand, significandAt, exponentField_eq, fractionField_eq]

/-- The power of two of a number, counted from that of the smallest one. -/
theorem power_eq (number : Binary64) :
    number.power = (number.magnitude / exponentWeight - 1 : ℕ) - 1074 := by
  rw [power, exponentField_eq]
  generalize number.magnitude / exponentWeight = field
  split
  · omega
  · omega

theorem lowerMark_magnitude (number : Binary64) :
    lowerMark number.magnitude =
      (4 * number.significand - if number.hasNarrowGap then 1 else 2)
        * 2 ^ (number.magnitude / exponentWeight - 1) := by
  rw [lowerMark, significand_eq]
  simp only [hasNarrowGap, exponentField_eq, fractionField_eq, Bool.and_eq_true, beq_iff_eq,
    decide_eq_true_eq]

/-- The interval of a number has its marks as bounds. -/
theorem contains_iff_readAs (number : Binary64) (decimal : Decimal) :
    number.interval.contains decimal = true ↔
      ReadAs (decimal.value * 2 ^ 1076) number.magnitude := by
  have closed : number.interval.closed = (number.magnitude % 2 == 0) := by
    rw [interval, significand_eq, significandAt_mod_two]
  -- The scale of an interval and its unit are those of the marks, up to a common factor.
  have exponents : (number.power - 2).toNat + 1076
      = number.magnitude / exponentWeight - 1 + (-(number.power - 2)).toNat := by
    rw [power_eq]
    omega
  have common : ((2 : ℚ) ^ (number.power - 2).toNat) * 2 ^ 1076
      = 2 ^ (number.magnitude / exponentWeight - 1) * 2 ^ (-(number.power - 2)).toNat := by
    rw [← pow_add, ← pow_add, exponents]
  have low : (number.interval.low : ℚ) * 2 ^ 1076
      = lowerMark number.magnitude * number.interval.unit := by
    rw [lowerMark_magnitude, interval]
    simp only [Nat.pow_eq, Nat.cast_mul, Nat.cast_pow, Nat.cast_ofNat]
    rw [mul_assoc, common]
    ring
  have high : (number.interval.high : ℚ) * 2 ^ 1076
      = lowerMark (number.magnitude + 1) * number.interval.unit := by
    rw [← upperMark_eq, upperMark, ← significand_eq, interval]
    simp only [Nat.pow_eq, Nat.cast_mul, Nat.cast_pow, Nat.cast_ofNat]
    rw [mul_assoc, common]
    ring
  have positive : (0 : ℚ) < number.interval.unit := by
    simp only [interval, Nat.pow_eq, Nat.cast_pow, Nat.cast_ofNat]
    positivity
  have scale : (0 : ℚ) < 2 ^ 1076 := by positivity
  rw [RoundingInterval.contains_iff, ReadAs, ← InRange.scale_iff scale, closed, low, high,
    mul_right_comm, InRange.scale_iff positive]

theorem value_exact (number : Binary64) :
    number.exact.value = number.significand * 2 ^ number.power := by
  rw [exact]
  split
  · rename_i large
    obtain ⟨power, eq⟩ := Int.eq_ofNat_of_zero_le large
    simp only [Decimal.value, eq, Int.toNat_natCast, Nat.pow_eq]
    push_cast
    simp
  · rename_i small
    obtain ⟨power, eq⟩ : ∃ power : Nat, number.power = -(power : Int) :=
      ⟨(-number.power).toNat, by omega⟩
    have ten : (10 : ℚ) ^ power = 2 ^ power * 5 ^ power := by
      rw [← mul_pow]
      norm_num
    simp only [Decimal.value, eq, Int.neg_neg, Int.toNat_natCast, Nat.pow_eq, zpow_neg,
      zpow_natCast, ten]
    push_cast
    field_simp

variable {number : Binary64}

theorem significand_pos (filled : number.isZero = false) : 0 < number.significand := by
  simp only [isZero, Bool.and_eq_false_iff, beq_eq_false_iff_ne] at filled
  rw [significand]
  split
  · rename_i subnormal
    rcases filled with normal | fraction
    · exact absurd subnormal normal
    · omega
  · exact Nat.add_pos_left (by decide) _

/-- A number other than zero lies in its own interval. -/
theorem contains_exact (filled : number.isZero = false) :
    number.interval.contains number.exact = true := by
  have positive := significand_pos filled
  have exponents : (number.power - 2).toNat + 2
      = number.power + ((-(number.power - 2)).toNat : ℤ) := by
    omega
  have place : number.exact.value * number.interval.unit = number.interval.center := by
    simp only [value_exact, interval, Nat.pow_eq]
    push_cast
    have four : (4 : ℚ) * 2 ^ (number.power - 2).toNat
        = 2 ^ number.power * 2 ^ (-(number.power - 2)).toNat := by
      rw [← zpow_natCast, ← zpow_natCast, ← zpow_add₀ (by norm_num), ← exponents,
        zpow_add₀ (by norm_num)]
      norm_num
      ring
    rw [mul_assoc, ← four]
    ring
  have scale : 0 < Nat.pow 2 (number.power - 2).toNat := Nat.pow_pos (by decide)
  rw [RoundingInterval.contains_iff, place]
  refine InRange.of_lt ?_ ?_
  · have below : number.interval.low < number.interval.center := by
      refine Nat.mul_lt_mul_of_pos_right ?_ scale
      split
      · omega
      · omega
    exact_mod_cast below
  · have above : number.interval.center < number.interval.high :=
      Nat.mul_lt_mul_of_pos_right (by omega) scale
    exact_mod_cast above

/-- The shortest form of a number is read as that number. -/
theorem readAs_shortest (filled : number.isZero = false) :
    ReadAs (number.shortest.value * 2 ^ 1076) number.magnitude := by
  rw [shortest, Decimal.value_trim, ← contains_iff_readAs]
  generalize found : List.findSome? _ (List.range 17) = choice
  cases choice with
  | none =>
      exact contains_exact filled
  | some decimal =>
      obtain ⟨count, -, attempt⟩ := List.exists_of_findSome?_eq_some found
      exact RoundingInterval.contains_of_onGrid? attempt

end Binary64

end FrontEnd
