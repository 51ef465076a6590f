import LongDivision.Expression.Term
import LongDivision.Expression.Token
import LongDivision.TermMap

/-!
Expressions such as `2*x^3-x+4`: a sum of terms, read from left to right up to the first term that
is refused.
-/

namespace LongDivision.Expression

def defaultLimit : Nat := 1024

/-- The terms in front of the first one that is refused, and why that one is. -/
def readTerms (limit : Nat) : (tokens : List (List Char)) → List ReadTerm × Option ExpressionError
  | [] => ([], none)
  | token :: tokens =>
      match readTerm limit token with
      | .error reason => ([], some reason)
      | .ok term =>
          let (terms, refusal) := readTerms limit tokens
          (term :: terms, refusal)

/-- The terms that are accepted, also those in front of one that is refused. -/
def accepted (limit : Nat) (text : List Char) : List ReadTerm :=
  (readTerms limit (tokens text)).1

def ReadTerm.term {α : Type} [IntCast α] (term : ReadTerm) : Term α :=
  ⟨term.exponent, term.coeff⟩

/-- Reads an expression with powers up to a limit. Terms of one power are added up in the order in
which they are written. -/
def parse {α : Type} [Zero α] [BEq α] [Add α] [IntCast α] (limit : Nat) (text : List Char) :
    Except ExpressionError (TermMap α) :=
  match readTerms limit (tokens text) with
  | (_, some reason) => .error reason
  | ([], none) => .error .noTerms
  | (terms, none) => .ok (TermMap.ofTerms (terms.map ReadTerm.term))

end LongDivision.Expression
