import LongDivision.Coefficient
import LongDivision.Decimal
import LongDivision.Dense
import LongDivision.TermSum

/-!
The text of polynomials: `2*x^3-1*x+4` for the dense form, one line for each term of a sum.
-/

namespace LongDivision

variable {α : Type} [Written α]

namespace Dense

def powerText : (exponent : Nat) → String
  | 0 => ""
  | 1 => "*x"
  | exponent => "*x^" ++ String.ofList (decimalDigits exponent)

variable [Zero α] [BEq α]

/-- The texts of the nonzero slots of a row whose last slot is the constant. The first text has no
plus sign, later ones start with their sign. -/
def termTexts : (first : Bool) → (row : List α) → List String
  | _, [] => []
  | first, slot :: lower =>
      if slot == 0 then termTexts first lower
      else
        let coeff := if first then Written.plain slot else Written.signed slot
        (coeff ++ powerText lower.length) :: termTexts false lower

/-- The nonzero terms, highest power first, with nothing between them. Nothing at all is written
for zero. -/
def text (poly : Dense α) : String :=
  String.join (termTexts true poly.slots)

/-- As `text`, but zero is visible. -/
def render (poly : Dense α) : String :=
  if poly.isZero then "0" else poly.text

end Dense

namespace TermSum

def termLine (term : Term α) : String :=
  "coeff: " ++ Written.plain term.coeff ++ " pow: " ++
    String.ofList (decimalDigits term.exponent) ++ "\n"

/-- One line for each term, from the head on, zero terms included. -/
def text (sum : TermSum α) : String :=
  String.join (sum.terms.map termLine)

end TermSum

end LongDivision
