/-
Module: FrontEnd.Number.Decimal
Layer: Number
Purpose: Decimal numbers and the ways to write them, positionally or with an exponent.
Imports: FrontEnd.Text.Basic
Trusted boundary: none
Main exports: Decimal, Decimal.trim, DecimalLayout, Decimal.text
Open obligations: none
-/
import FrontEnd.Text.Basic

namespace FrontEnd

/-- The number `digits * 10 ^ exponent`. -/
structure Decimal where
  digits : Nat
  exponent : Int
deriving DecidableEq, Repr, Inhabited

/-- Which numbers are written positionally: those whose leading digit has an exponent between
    `lowest` and `highest`. -/
structure DecimalLayout where
  lowest : Int
  highest : Int
deriving DecidableEq, Repr, Inhabited

namespace Decimal

/-- The same number without zeros at the end of its digits. -/
def trim (number : Decimal) : Decimal :=
  if _zeros : 0 < number.digits ∧ number.digits % 10 = 0 then
    trim { digits := number.digits / 10, exponent := number.exponent + 1 }
  else number
termination_by number.digits
decreasing_by exact Nat.div_lt_self _zeros.1 (by decide)

/-- The digits of a number that has `exponent` as its power of ten, with a point among them: at
    least one digit stands on either side of it. -/
def positional (digits : List Char) (exponent : Int) : List Char :=
  let whole := digits.length + exponent
  if 0 ≤ exponent then digits ++ List.replicate exponent.toNat '0' ++ ['.', '0']
  else if whole ≤ 0 then ['0', '.'] ++ List.replicate (-whole).toNat '0' ++ digits
  else digits.take whole.toNat ++ '.' :: digits.drop whole.toNat

/-- The digits of a number with the point behind the first one, followed by the exponent of that
    digit. A digit alone has no point. -/
def scientific (digits : List Char) (exponent : Int) : List Char :=
  let leading := exponent + digits.length - 1
  digits.take 1 ++ (if digits.length ≤ 1 then [] else '.' :: digits.drop 1)
    ++ 'e' :: (toString leading).toList

/-- A number as it is written in a layout. -/
def text (layout : DecimalLayout) (number : Decimal) : List Char :=
  let digits := Nat.toDigits 10 number.digits
  let leading := number.exponent + digits.length - 1
  if layout.lowest ≤ leading ∧ leading ≤ layout.highest then positional digits number.exponent
  else scientific digits number.exponent

end Decimal

end FrontEnd
