import LongDivision.Dense

/-!
Long division. Each step cancels the leading slot of the remainder with a multiple of the divisor
and then drops that slot, so that the number of steps is bounded by the number of slots, whatever
the coefficient arithmetic does.
-/

namespace LongDivision

inductive DivisionError where
  /-- All slots of the divisor are zero. -/
  | zeroDivisor
  /-- The leading slot of the divisor is zero, another one is not. -/
  | zeroLead (degree : Nat)
  deriving DecidableEq

def DivisionError.message : DivisionError → String
  | zeroDivisor => "division by the zero polynomial"
  | zeroLead degree => s!"divisor of degree {degree} has a zero leading coefficient"

/-- The cause by its name, with what belongs to it. -/
def DivisionError.logged : DivisionError → String
  | zeroDivisor => "DivisionByZero"
  | zeroLead degree => "ZeroLeadingCoefficient \x7b degree: " ++ toString degree ++ " \x7d"

/-- One step of a division: the term that joins the quotient and the degree of what remains. -/
structure DivisionStep (α : Type) where
  term : Dense α
  remainderDegree : Nat
  deriving DecidableEq

/-- Quotient and remainder, with the steps that led to them, first step first. -/
structure Division (α : Type) where
  quotient : Dense α
  remainder : Dense α
  steps : List (DivisionStep α)
  deriving DecidableEq

namespace Division

variable {α : Type} [Zero α] [One α] [Neg α] [Add α] [Mul α] [Div α] [BEq α]

/-- No further step is taken: the remainder is zero or its degree is below the divisor's. -/
@[specialize]
def ended (divisor remainder : Dense α) : Bool :=
  remainder.isZero || remainder.degree < divisor.degree

/-- The term whose multiple of the divisor has the leading slot of the remainder. -/
@[specialize]
def nextTerm (divisor remainder : Dense α) : Dense α :=
  Dense.leadingTerm (remainder.lead / divisor.lead) (remainder.degree - divisor.degree + 1)

/-- What a term leaves of the remainder. -/
@[specialize]
def nextRemainder (divisor remainder term : Dense α) : Dense α :=
  (remainder - term * divisor).dropLead

/-- Takes at most `count` steps. -/
@[specialize]
def reduce (divisor : Dense α) :
    (count : Nat) → (quotient remainder : Dense α) → Division α
  | 0, quotient, remainder => ⟨quotient, remainder, []⟩
  | count + 1, quotient, remainder =>
      if ended divisor remainder then ⟨quotient, remainder, []⟩
      else
        let term := nextTerm divisor remainder
        let reduced := nextRemainder divisor remainder term
        let rest := reduce divisor count (quotient + term) reduced
        { rest with steps := ⟨term, reduced.degree⟩ :: rest.steps }

end Division

namespace Dense

variable {α : Type} [Zero α] [One α] [Neg α] [Add α] [Mul α] [Div α] [BEq α]

/-- Divides by a polynomial whose leading slot is not zero. A dividend of lower degree is itself
the remainder. -/
def divide (dividend divisor : Dense α) : Except DivisionError (Division α) :=
  if divisor.isZero then .error .zeroDivisor
  else if divisor.lead == 0 then .error (.zeroLead divisor.degree)
  else if dividend.isZero then .ok ⟨zero, zero, []⟩
  else if dividend.degree < divisor.degree then .ok ⟨zero, dividend, []⟩
  else .ok (Division.reduce divisor (dividend.degree - divisor.degree + 1) zero dividend)

end Dense

end LongDivision
