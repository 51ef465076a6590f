import LongDivision.Dense
import LongDivision.Term
import LongDivision.TermSum

/-!
Maps from powers to nonzero coefficients. A map is what both written forms of a polynomial are made
from, so that the dense form and the sum of terms of one map describe one polynomial.
-/

namespace LongDivision

variable {α : Type} [Zero α] [BEq α]

/-- Terms of distinct powers, lowest power first, none of them zero. -/
structure TermMap (α : Type) [Zero α] [BEq α] where
  terms : List (Term α)
  ascending : terms.Pairwise (·.exponent < ·.exponent)
  nonzero : ∀ term ∈ terms, (term.coeff == 0) = false

namespace TermMap

section Insertion

variable [Add α]

/-- Adds a term to ascending terms. A zero coefficient of a new power is ignored, and a power whose
coefficient becomes zero is removed. -/
@[specialize]
def insertTerm (term : Term α) : List (Term α) → List (Term α)
  | [] => if term.coeff == 0 then [] else [term]
  | found :: higher =>
      if term.exponent < found.exponent then
        if term.coeff == 0 then found :: higher else term :: found :: higher
      else if term.exponent = found.exponent then
        let sum := found.coeff + term.coeff
        if sum == 0 then higher else ⟨found.exponent, sum⟩ :: higher
      else found :: insertTerm term higher

theorem exponent_insertTerm {term member : Term α} {terms : List (Term α)}
    (inserted : member ∈ insertTerm term terms) :
    member.exponent = term.exponent ∨ ∃ found ∈ terms, member.exponent = found.exponent := by
  induction terms with
  | nil =>
      rw [insertTerm] at inserted
      split at inserted
      · contradiction
      · have new := List.mem_singleton.mp inserted
        exact .inl (congrArg Term.exponent new)
  | cons found higher ih =>
      have above (later : member ∈ higher) :
          ∃ other ∈ found :: higher, member.exponent = other.exponent :=
        ⟨member, List.mem_cons_of_mem _ later, rfl⟩
      simp only [insertTerm] at inserted
      split at inserted
      · split at inserted
        · exact .inr ⟨member, inserted, rfl⟩
        · rcases List.mem_cons.mp inserted with new | old
          · exact .inl (congrArg Term.exponent new)
          · exact .inr ⟨member, old, rfl⟩
      · split at inserted
        · split at inserted
          · exact .inr (above inserted)
          · rcases List.mem_cons.mp inserted with summed | later
            · have same : member.exponent = found.exponent := by rw [summed]
              exact .inr ⟨found, List.mem_cons_self, same⟩
            · exact .inr (above later)
        · rcases List.mem_cons.mp inserted with rfl | later
          · exact .inr ⟨_, List.mem_cons_self, rfl⟩
          · rcases ih later with same | ⟨other, member, same⟩
            · exact .inl same
            · exact .inr ⟨other, List.mem_cons_of_mem _ member, same⟩

theorem ascending_insertTerm (term : Term α) {terms : List (Term α)}
    (ascending : terms.Pairwise (·.exponent < ·.exponent)) :
    (insertTerm term terms).Pairwise (·.exponent < ·.exponent) := by
  induction terms with
  | nil =>
      simp only [insertTerm]
      split <;> simp
  | cons found higher ih =>
      have above := (List.pairwise_cons.mp ascending).1
      have rest := (List.pairwise_cons.mp ascending).2
      simp only [insertTerm]
      split
      · split
        · exact ascending
        · refine List.pairwise_cons.mpr ⟨fun member inside => ?_, ascending⟩
          rcases List.mem_cons.mp inside with rfl | later
          · assumption
          · exact Nat.lt_trans ‹_› (above member later)
      · split
        · split
          · exact rest
          · exact List.pairwise_cons.mpr ⟨above, rest⟩
        · refine List.pairwise_cons.mpr ⟨fun member inside => ?_, ih rest⟩
          rcases exponent_insertTerm inside with same | ⟨other, later, same⟩
          · omega
          · rw [same]
            exact above other later

theorem nonzero_insertTerm (term : Term α) {terms : List (Term α)}
    (nonzero : ∀ member ∈ terms, (member.coeff == 0) = false) :
    ∀ member ∈ insertTerm term terms, (member.coeff == 0) = false := by
  induction terms with
  | nil =>
      rw [insertTerm]
      split
      · exact nonzero
      · rename_i kept
        exact List.forall_mem_cons.mpr ⟨Bool.not_eq_true _ ▸ kept, nonzero⟩
  | cons found higher ih =>
      have ⟨foundNonzero, higherNonzero⟩ := List.forall_mem_cons.mp nonzero
      simp only [insertTerm]
      split
      · split
        · exact nonzero
        · rename_i kept
          exact List.forall_mem_cons.mpr ⟨Bool.not_eq_true _ ▸ kept, nonzero⟩
      · split
        · split
          · exact higherNonzero
          · rename_i kept
            exact List.forall_mem_cons.mpr ⟨Bool.not_eq_true _ ▸ kept, higherNonzero⟩
        · exact List.forall_mem_cons.mpr ⟨foundNonzero, ih higherNonzero⟩

/-- Adds to the coefficient of a power, as `insertTerm` does. -/
def insert (map : TermMap α) (exponent : Nat) (coeff : α) : TermMap α where
  terms := insertTerm ⟨exponent, coeff⟩ map.terms
  ascending := ascending_insertTerm _ map.ascending
  nonzero := nonzero_insertTerm _ map.nonzero

end Insertion

def empty : TermMap α := ⟨[], .nil, by simp⟩

def ofTerms [Add α] (terms : List (Term α)) : TermMap α :=
  terms.foldl (fun map term => map.insert term.exponent term.coeff) empty

def get? (map : TermMap α) (exponent : Nat) : Option α :=
  (map.terms.find? (·.exponent == exponent)).map (·.coeff)

def degree? (map : TermMap α) : Option Nat :=
  map.terms.getLast?.map (·.exponent)

def size (map : TermMap α) : Nat :=
  map.terms.length

def isEmpty (map : TermMap α) : Bool :=
  map.terms.isEmpty

instance : BEq (TermMap α) where
  beq left right := left.terms == right.terms

/-- The dense form, led by the highest power. Powers without a term have a zero slot. -/
def toDense (map : TermMap α) : Dense α :=
  match map.degree? with
  | none => Dense.zero
  | some degree =>
      Dense.ofSlots
        ((List.range (degree + 1)).map fun slot => (map.get? (degree - slot)).getD 0)

/-- The sum of all terms, highest power at the head. -/
def toTermSum (map : TermMap α) : TermSum α :=
  map.terms.foldl TermSum.prepend TermSum.empty

end TermMap

end LongDivision
