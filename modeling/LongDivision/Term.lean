/-!
A single term, the coefficient of one power of `x`.
-/

namespace LongDivision

/-- The term `coeff * x ^ exponent`. -/
structure Term (α : Type) where
  exponent : Nat
  coeff : α
  deriving DecidableEq

/-- Terms are compared by their coefficients' own equality, which need not be reflexive. -/
instance {α : Type} [BEq α] : BEq (Term α) where
  beq left right := left.exponent == right.exponent && left.coeff == right.coeff

end LongDivision
