/-
Module: FrontEnd.Number.Binary64
Layer: Number
Purpose: Binary floating-point numbers of 64 bits, as words. What a word stands for is read off its
  sign, exponent and fraction in exact arithmetic.
Imports: none
Trusted boundary: none
Main exports: Binary64, Binary64.significand, Binary64.power, Binary64.isNaN, Binary64.equals
Open obligations: none
-/

namespace FrontEnd

/-- A floating-point number in the interchange format of 64 bits. -/
structure Binary64 where
  bits : UInt64
deriving DecidableEq, Repr, Inhabited

namespace Binary64

/-- The weight of the sign bit in a word, `2 ^ 63`. -/
def signWeight : Nat := 0x8000000000000000

/-- The weight of the last bit of the exponent in a word, `2 ^ 52`. It is also that of the leading
    bit of a significand, which a word leaves out. -/
def exponentWeight : Nat := 0x10000000000000

/-- Whether the sign bit is set. -/
def isNegative (number : Binary64) : Bool :=
  signWeight ≤ number.bits.toNat

/-- The eleven bits of the exponent. -/
def exponentField (number : Binary64) : Nat :=
  number.bits.toNat / exponentWeight % 2048

/-- The 52 bits of the fraction. -/
def fractionField (number : Binary64) : Nat :=
  number.bits.toNat % exponentWeight

/-- Whether the word stands for no number. -/
def isNaN (number : Binary64) : Bool :=
  number.exponentField == 2047 && number.fractionField != 0

/-- Whether the word stands for an infinity. -/
def isInfinite (number : Binary64) : Bool :=
  number.exponentField == 2047 && number.fractionField == 0

/-- Whether the word stands for zero, which has two signs. -/
def isZero (number : Binary64) : Bool :=
  number.exponentField == 0 && number.fractionField == 0

/-- The integer `m` of a finite number `m * 2 ^ power` without its sign. Only the smallest numbers
    lack the leading bit. -/
def significand (number : Binary64) : Nat :=
  if number.exponentField = 0 then number.fractionField else exponentWeight + number.fractionField

/-- The power of two of a finite number. -/
def power (number : Binary64) : Int :=
  if number.exponentField = 0 then -1074 else (number.exponentField : Int) - 1075

/-- Whether the next number towards zero is only half as far away as the next one outwards: the
    number is a power of two, and the exponent can still shrink. -/
def hasNarrowGap (number : Binary64) : Bool :=
  number.fractionField == 0 && 1 < number.exponentField

/-- Equality of the numbers that two words stand for. No NaN equals anything, and the two zeros are
    equal. -/
def equals (left right : Binary64) : Bool :=
  !left.isNaN && !right.isNaN && (left == right || (left.isZero && right.isZero))

end Binary64

end FrontEnd
