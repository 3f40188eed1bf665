/-
Module: FrontEnd.Number.Shortest
Layer: Number
Purpose: The shortest decimal form of a floating-point number: the fewest digits that read back as
  the number, and of those the nearest to it. A half goes up. Everything is computed exactly, as
  fractions over one denominator.
Imports: FrontEnd.Number.Binary64, FrontEnd.Number.Decimal
Trusted boundary: none
Main exports: RoundingInterval, RoundingInterval.contains, Binary64.interval, Binary64.shortest,
  Binary64.text
Open obligations: none
-/
import FrontEnd.Number.Binary64
import FrontEnd.Number.Decimal

namespace FrontEnd

/-- The numbers that are read as one floating-point number. All bounds are multiples of the same
    fraction: the interval reaches from `low / unit` to `high / unit` around `center / unit`. -/
structure RoundingInterval where
  low : Nat
  center : Nat
  high : Nat
  unit : Nat
  closed : Bool
deriving DecidableEq, Repr

namespace RoundingInterval

/-- A power of ten as a fraction. -/
def powerOfTen (exponent : Int) : Nat × Nat :=
  if 0 ≤ exponent then (Nat.pow 10 exponent.toNat, 1) else (1, Nat.pow 10 (-exponent).toNat)

/-- Whether a decimal number is read as the number at the center. -/
def contains (interval : RoundingInterval) (number : Decimal) : Bool :=
  let (numerator, denominator) := powerOfTen number.exponent
  let place := number.digits * numerator * interval.unit
  let low := interval.low * denominator
  let high := interval.high * denominator
  if interval.closed then low ≤ place && place ≤ high else low < place && place < high

/-- How many digits of the center stand before the point. For a center below one the number is zero
    or negative, and counts the zeros behind the point. -/
def magnitude (interval : RoundingInterval) : Int :=
  let width (number : Nat) : Int := (Nat.toDigits 10 number).length
  if interval.unit ≤ interval.center then width (interval.center / interval.unit)
  else 1 - width ((interval.unit - 1) / interval.center)

/-- The decimal number with a power of ten that is read as the center, if there is one. Only the two
    around the center can be; of both, the nearer is taken, and the upper one if neither is nearer.
    -/
def onGrid? (interval : RoundingInterval) (exponent : Int) : Option Decimal :=
  let (numerator, denominator) := powerOfTen exponent
  let step := numerator * interval.unit
  let center := interval.center * denominator
  let lower : Decimal := { digits := center / step, exponent }
  let upper : Decimal := { digits := center / step + 1, exponent }
  match interval.contains lower, interval.contains upper with
  | true, true => some (if 2 * center < (2 * (center / step) + 1) * step then lower else upper)
  | true, false => some lower
  | false, true => some upper
  | false, false => none

end RoundingInterval

namespace Binary64

/-- The interval of a finite number other than zero. It reaches half the way to both neighbors, and
    its ends belong to it if the significand is even. -/
def interval (number : Binary64) : RoundingInterval :=
  let quarter := number.power - 2
  let scale := Nat.pow 2 quarter.toNat
  { low := (4 * number.significand - if number.hasNarrowGap then 1 else 2) * scale
    center := 4 * number.significand * scale
    high := (4 * number.significand + 2) * scale
    unit := Nat.pow 2 (-quarter).toNat
    closed := number.significand % 2 == 0 }

/-- A finite number as a decimal number, exactly. -/
def exact (number : Binary64) : Decimal :=
  if 0 ≤ number.power then
    { digits := number.significand * Nat.pow 2 number.power.toNat, exponent := 0 }
  else
    { digits := number.significand * Nat.pow 5 (-number.power).toNat, exponent := number.power }

/-- The shortest decimal number that reads back as a finite number other than zero. Seventeen digits
    are always enough. -/
def shortest (number : Binary64) : Decimal :=
  let interval := number.interval
  let attempt (count : Nat) := interval.onGrid? (interval.magnitude - (count + 1))
  (((List.range 17).findSome? attempt).getD number.exact).trim

/-- Literals are written positionally if their leading digit stands at most four places behind the
    point and has at most fifteen digits between it and the point. -/
def layout : DecimalLayout where
  lowest := -4
  highest := 15

/-- A floating-point number as it is written. All NaNs are written alike. -/
def text (number : Binary64) : String :=
  let sign := if number.isNegative then ['-'] else []
  if number.isNaN then "NaN"
  else if number.isInfinite then String.ofList (sign ++ ['i', 'n', 'f'])
  else if number.isZero then String.ofList (sign ++ ['0', '.', '0'])
  else String.ofList (sign ++ number.shortest.text layout)

end Binary64

end FrontEnd
