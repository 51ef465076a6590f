import LongDivision.Coefficient
import LongDivision.Decimal
import LongDivision.Decimal.Shortest

/-!
Floating-point coefficients: a number is taken apart into sign, mantissa and exponent, and written
with the fewest digits that read back as the same number.
-/

namespace LongDivision

/-- The content of a floating-point number. A finite one has the absolute value
`mantissa * 2 ^ exponent / 2 ^ 1074`. -/
inductive Binary64 where
  | nan
  | infinite (negative : Bool)
  | finite (negative : Bool) (mantissa exponent : Nat)
  deriving DecidableEq

namespace Binary64

/-- The mantissa bit that normal numbers leave unwritten. -/
def hiddenBit : Nat := Nat.pow 2 52

/-- Takes the bit pattern apart: one sign bit, eleven bits of exponent, fifty-two of mantissa. -/
def ofBits (bits : Nat) : Binary64 :=
  let negative := bits / Nat.pow 2 63 == 1
  let exponent := bits / hiddenBit % 2048
  let fraction := bits % hiddenBit
  if exponent = 2047 then
    if fraction = 0 then .infinite negative else .nan
  else if exponent = 0 then .finite negative fraction 0
  else .finite negative (fraction + hiddenBit) (exponent - 1)

def ofFloat (number : Float) : Binary64 :=
  ofBits number.toBits.toNat

/-- The numbers that round to `mantissa * 2 ^ exponent / 2 ^ 1074`, scaled up to naturals. They
reach half a step to each side, but only a quarter step down from a power of two, below which the
steps are half as long; the ends round to the even mantissa. -/
def window (mantissa exponent unit : Nat) : Window where
  low := (4 * mantissa - if mantissa = hiddenBit ∧ exponent ≠ 0 then 1 else 2) * unit
  value := 4 * mantissa * unit
  high := (4 * mantissa + 2) * unit
  closed := mantissa % 2 == 0

/-- The shortest decimal that rounds to `mantissa * 2 ^ exponent / 2 ^ 1074`, the nearest one if
there are several. A quarter step is `2 ^ exponent / 2 ^ 1076`: a whole number or, with enough
decimal places, a power of five. -/
def shortest (mantissa exponent : Nat) : Decimal :=
  let places := 1076 - exponent
  let scaled := window mantissa exponent (Nat.pow 5 places * Nat.pow 2 (exponent - 1076))
  let (digits, power) := scaled.coarsest scaled.powerAbove
  ⟨digits, (power : Int) - places⟩

def zero : Decimal := ⟨0, 0⟩

def decimal (mantissa exponent : Nat) : Decimal :=
  if mantissa = 0 then zero else shortest mantissa exponent

private def withSign (negative : Bool) (text : List Char) : List Char :=
  if negative then '-' :: text else text

/-- Positional text, however long; a whole number has no point. -/
def plain : Binary64 → List Char
  | nan => ['N', 'a', 'N']
  | infinite negative => withSign negative ['i', 'n', 'f']
  | finite negative mantissa exponent =>
      withSign negative (decimal mantissa exponent).positional

/-- As `plain`, but a number without a minus sign gets a plus sign. -/
def signed : Binary64 → List Char
  | nan => plain nan
  | infinite negative =>
      if negative then plain (infinite negative) else '+' :: plain (infinite negative)
  | finite negative mantissa exponent =>
      if negative then plain (finite negative mantissa exponent)
      else '+' :: plain (finite negative mantissa exponent)

/-- Positional text from `0.0001` up to `10 ^ 16`, where whole numbers keep one decimal place, and
scientific text outside. -/
def logged : Binary64 → List Char
  | nan => plain nan
  | infinite negative => plain (infinite negative)
  | finite negative mantissa exponent =>
      let number := decimal mantissa exponent
      let text :=
        if number.digits ≠ 0 ∧ (number.magnitude < -4 ∨ 16 ≤ number.magnitude) then
          number.scientific
        else if 0 ≤ number.exponent then number.positional ++ ['.', '0']
        else number.positional
      withSign negative text

end Binary64

instance Binary64.writtenFloat : Written Float where
  plain number := String.ofList (Binary64.ofFloat number).plain
  signed number := String.ofList (Binary64.ofFloat number).signed
  logged number := String.ofList (Binary64.ofFloat number).logged

/-- An integer stands for the floating-point number nearest to it. -/
instance Binary64.intCastFloat : IntCast Float := ⟨Float.ofInt⟩

end LongDivision
