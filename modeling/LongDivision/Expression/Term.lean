import LongDivision.Expression.Error

/-!
Reading a single term. Its forms are an integer times a power of `x`, a power of `x` with or
without a minus sign, and an integer alone. The power is `x` or `x^` with an unsigned number.
-/

namespace LongDivision.Expression

/-- Coefficients are signed 64-bit integers. -/
def leastCoefficient : Int := -9223372036854775808

def greatestCoefficient : Int := 9223372036854775807

/-- Powers are unsigned 32-bit integers. -/
def greatestExponent : Nat := 4294967295

/-- One or more decimal digits; leading zeros are allowed. -/
def number? (text : List Char) : Option Nat :=
  if !text.isEmpty && text.all Char.isDigit then some (Nat.ofDigitChars 10 text 0) else none

def exponent? (text : List Char) : Option Nat :=
  (number? text).filter (· ≤ greatestExponent)

def signedNumber? : List Char → Option Int
  | '-' :: text => (number? text).map fun number => -(number : Int)
  | text => (number? text).map Int.ofNat

def integer? (text : List Char) : Option Int :=
  (signedNumber? text).filter fun integer =>
    leastCoefficient ≤ integer && integer ≤ greatestCoefficient

def power? : List Char → Option Nat
  | ['x'] => some 1
  | 'x' :: '^' :: text => exponent? text
  | _ => none

/-- A term without a multiplication sign. -/
def plainTerm? (text : List Char) : Option (Int × Nat) :=
  match text with
  | 'x' :: _ => (power? text).map (1, ·)
  | '-' :: 'x' :: rest => (power? ('x' :: rest)).map (-1, ·)
  | _ => (integer? text).map (·, 0)

def term? (text : List Char) : Option (Int × Nat) :=
  match text.dropWhile (· ≠ '*') with
  | [] => plainTerm? text
  | _ :: power => do
      let coeff ← integer? (text.takeWhile (· ≠ '*'))
      let exponent ← power? power
      return (coeff, exponent)

structure ReadTerm where
  token : String
  coeff : Int
  exponent : Nat
  deriving DecidableEq

/-- Reads one term. What is wrong with a term is looked for in a fixed order: a decimal point in
front of the first `x`, the form, a zero coefficient, the power. -/
def readTerm (limit : Nat) (token : List Char) : Except ExpressionError ReadTerm :=
  let text := String.ofList token
  if '.' ∈ token.takeWhile (· ≠ 'x') then .error (.nonIntegerCoefficient text)
  else match term? token with
    | none => .error (.invalidTerm text)
    | some (coeff, exponent) =>
        if coeff = 0 then .error (.zeroCoefficient text)
        else if limit < exponent then .error (.degreeTooLarge exponent limit)
        else .ok ⟨text, coeff, exponent⟩

end LongDivision.Expression
