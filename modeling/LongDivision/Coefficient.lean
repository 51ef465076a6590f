/-!
Coefficients and their text. The arithmetic of polynomials asks nothing of its coefficients but the
bare operations, so that one set of definitions serves floating-point numbers and exact ones.
-/

namespace LongDivision

class Written (α : Type) where
  /-- The text of a coefficient that stands first or alone. -/
  plain : α → String
  /-- The text of a coefficient that follows another term: it starts with the sign that joins
  them. -/
  signed : α → String
  /-- The text of a coefficient in a log line, which marks whole numbers as coefficients too. -/
  logged : α → String

end LongDivision
