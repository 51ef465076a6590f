import LongDivision.Text.Message

/-!
Why an expression is refused.
-/

namespace LongDivision

inductive ExpressionError where
  /-- The text of a term has none of the forms of a term. -/
  | invalidTerm (token : String)
  /-- A decimal point stands in the coefficient. -/
  | nonIntegerCoefficient (token : String)
  | zeroCoefficient (token : String)
  /-- The power is above the limit. -/
  | degreeTooLarge (degree limit : Nat)
  | noTerms
  deriving DecidableEq

def ExpressionError.message : ExpressionError → String
  | invalidTerm token => token ++ " is not a valid term"
  | nonIntegerCoefficient token =>
      token ++ " is not a valid term: coefficients must be integers"
  | zeroCoefficient token => token ++ " has a zero coefficient"
  | degreeTooLarge degree limit => s!"degree {degree} exceeds the maximum of {limit}"
  | noTerms => "expression has no terms"

/-- The cause by its name, with what belongs to it. -/
def ExpressionError.logged : ExpressionError → String
  | invalidTerm token => "InvalidTerm(" ++ quoted token ++ ")"
  | nonIntegerCoefficient token => "NonIntegerCoefficient(" ++ quoted token ++ ")"
  | zeroCoefficient token => "ZeroCoefficient(" ++ quoted token ++ ")"
  | degreeTooLarge degree limit =>
      "DegreeTooLarge \x7b degree: " ++ toString degree ++ ", max: " ++ toString limit ++ " \x7d"
  | noTerms => "EmptyExpression"

end LongDivision
