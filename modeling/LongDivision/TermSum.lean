import LongDivision.Dense
import LongDivision.Term

/-!
Sums written term by term. Terms of one power may repeat and stand in any order until two sums are
merged: the merged sum has one term for each power, highest power first, and no zero term.
-/

namespace LongDivision

structure TermSum (α : Type) where
  terms : List (Term α)
  deriving DecidableEq

namespace TermSum

variable {α : Type}

def empty : TermSum α := ⟨[]⟩

def size (sum : TermSum α) : Nat :=
  sum.terms.length

def isEmpty (sum : TermSum α) : Bool :=
  sum.terms.isEmpty

def head? (sum : TermSum α) : Option (Term α) :=
  sum.terms.head?

/-- Puts a term in front, whatever terms of its power there are. -/
def prepend (sum : TermSum α) (term : Term α) : TermSum α :=
  ⟨term :: sum.terms⟩

instance [BEq α] : BEq (TermSum α) where
  beq left right := left.terms == right.terms

section Arithmetic

variable [Zero α] [Add α]

/-- The sum of the coefficients of one power, from head to tail and starting at zero. -/
@[specialize]
def total (sum : TermSum α) (exponent : Nat) : α :=
  sum.terms.foldl
    (fun value term => if term.exponent = exponent then value + term.coeff else value) 0

def degree? (sum : TermSum α) : Option Nat :=
  (sum.terms.map (·.exponent)).max?

/-- The dense form, led by the highest power that occurs, even if its coefficients cancel. -/
@[specialize]
def toDense (sum : TermSum α) : Dense α :=
  match sum.degree? with
  | none => Dense.zero
  | some degree =>
      Dense.ofSlots ((List.range (degree + 1)).map fun slot => sum.total (degree - slot))

/-- Adds a term into running totals, which are kept highest power first. A power that is new to the
totals starts from zero. -/
@[specialize]
def addToTotals (term : Term α) : (totals : List (Term α)) → List (Term α)
  | [] => [⟨term.exponent, 0 + term.coeff⟩]
  | found :: lower =>
      if found.exponent < term.exponent then ⟨term.exponent, 0 + term.coeff⟩ :: found :: lower
      else if found.exponent = term.exponent then
        ⟨found.exponent, found.coeff + term.coeff⟩ :: lower
      else found :: addToTotals term lower

/-- The totals of all powers in two sums, the terms of the first sum added first. Powers that
cancel are still there, with a zero total. -/
def totals (left right : TermSum α) : List (Term α) :=
  (left.terms ++ right.terms).foldl (fun totals term => addToTotals term totals) []

def distinctPowers (left right : TermSum α) : Nat :=
  (totals left right).length

/-- The sum of two sums with one nonzero term for each power, highest power first. -/
def merge [BEq α] (left right : TermSum α) : TermSum α :=
  ⟨(totals left right).filter fun term => !(term.coeff == 0)⟩

end Arithmetic

instance [Zero α] [Add α] [BEq α] : Add (TermSum α) := ⟨merge⟩

end TermSum

end LongDivision
