/-!
Decimal numbers and their two written layouts: positional, with as many zeros as it takes, and
scientific, with one digit before the point.
-/

namespace LongDivision

/-- The number `digits * 10 ^ exponent`. -/
structure Decimal where
  digits : Nat
  exponent : Int

/-- The decimal digits of a number, most significant first, without leading zeros. -/
def decimalDigits (number : Nat) : List Char :=
  Nat.toDigits 10 number

/-- The decimal text of an integer, with a sign only when it is negative. -/
def integerText : Int → List Char
  | .ofNat number => decimalDigits number
  | .negSucc number => '-' :: decimalDigits (number + 1)

namespace Decimal

/-- The power of ten of the leading digit. -/
def magnitude (decimal : Decimal) : Int :=
  decimal.exponent + ((decimalDigits decimal.digits).length - 1 : Nat)

/-- Positional text: zeros fill the places between the digits and the point, and a number without
a fraction has no point. -/
def positional (decimal : Decimal) : List Char :=
  let digits := decimalDigits decimal.digits
  match decimal.exponent with
  | .ofNat zeros => digits ++ List.replicate zeros '0'
  | .negSucc tenths =>
      let places := tenths + 1
      let padded := List.replicate (places + 1 - digits.length) '0' ++ digits
      let whole := padded.length - places
      padded.take whole ++ '.' :: padded.drop whole

/-- Scientific text: the leading digit, the other digits behind a point if there are any, and the
power of ten of the leading digit. -/
def scientific (decimal : Decimal) : List Char :=
  let fraction (digits : List Char) := if digits.isEmpty then [] else '.' :: digits
  match decimalDigits decimal.digits with
  | [] => []
  | lead :: rest => lead :: fraction rest ++ 'e' :: integerText decimal.magnitude

end Decimal

end LongDivision
