import LongDivision.Text.Blank

/-!
Cutting an expression into the texts of its terms. Blanks do not count. A plus sign ends a term and
a minus sign starts one, so that `x^2-3` has the terms `x^2` and `-3`.
-/

namespace LongDivision.Expression

/-- Cuts a text without blanks at each plus sign and before each minus sign: the piece the text
starts with, and the pieces after it. -/
def cut : List Char → List Char × List (List Char)
  | [] => ([], [])
  | char :: rest =>
      let (piece, pieces) := cut rest
      if char = '+' then ([], piece :: pieces)
      else if char = '-' then ([], (char :: piece) :: pieces)
      else (char :: piece, pieces)

/-- The texts of the terms. Empty pieces, as in `x++1`, are no terms. -/
def tokens (text : List Char) : List (List Char) :=
  let (piece, pieces) := cut (text.filter fun char => !isBlank char)
  (piece :: pieces).filter fun token => !token.isEmpty

end LongDivision.Expression
