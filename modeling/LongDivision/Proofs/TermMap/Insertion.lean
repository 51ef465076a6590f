import LongDivision.Proofs.Term.Coefficients
import LongDivision.Proofs.TermMap.Forms

/-! Maps that terms are inserted into, read one power at a time: each power holds what its own
coefficients add up to.
-/

namespace LongDivision

open Term

variable {α : Type}

namespace TermMap

variable [Zero α] [BEq α]

theorem lookup_unless_zero {terms : List (Term α)} {exponent : Nat} {coeff : α}
    (absent : lookup terms exponent = none) (other : Nat) :
    lookup (if coeff == 0 then terms else ⟨exponent, coeff⟩ :: terms) other =
      if exponent = other then (if coeff == 0 then none else some coeff) else lookup terms other := by
  by_cases same : exponent = other
  · subst same
    split <;> simp [lookup_cons, absent]
  · split <;> simp [lookup_cons, same]

variable [Add α]

/-- The coefficient of a power after another one was added. Nothing is left of a sum that is zero. -/
def addTo (found : Option α) (coeff : α) : Option α :=
  let sum := found.elim coeff (· + coeff)
  if sum == 0 then none else some sum

/-- What the coefficients of a power add up to, from the first to the last one. -/
def total (coeffs : List α) : Option α :=
  coeffs.foldl addTo none

theorem lookup_insertTerm (term : Term α) {terms : List (Term α)}
    (ascending : terms.Pairwise (·.exponent < ·.exponent)) (exponent : Nat) :
    lookup (insertTerm term terms) exponent =
      if term.exponent = exponent then addTo (lookup terms exponent) term.coeff
      else lookup terms exponent := by
  induction terms with
  | nil => exact lookup_unless_zero rfl exponent
  | cons found higher ih =>
      obtain ⟨later, rest⟩ := List.pairwise_cons.mp ascending
      rcases Nat.lt_trichotomy term.exponent found.exponent with below | same | above
      · have absent : lookup (found :: higher) term.exponent = none := by
          rw [lookup_eq_none_iff]
          intro other member
          rcases List.mem_cons.mp member with rfl | inside
          · exact Nat.ne_of_gt below
          · exact Nat.ne_of_gt (Nat.lt_trans below (later other inside))
        rw [insertTerm, if_pos below, lookup_unless_zero absent]
        split
        · rename_i same
          rw [← same, absent]
          rfl
        · rfl
      · have absent : lookup higher found.exponent = none :=
          lookup_eq_none_iff.mpr fun other inside => Nat.ne_of_gt (later other inside)
        rw [insertTerm, if_neg (Nat.not_lt.mpr (Nat.le_of_eq same.symm)), if_pos same, same]
        dsimp only
        rw [lookup_unless_zero absent, lookup_cons]
        split <;> rfl
      · rw [insertTerm, if_neg (Nat.lt_asymm above), if_neg (Nat.ne_of_gt above), lookup_cons,
          lookup_cons, ih rest]
        by_cases here : found.exponent = exponent
        · have other : ¬ term.exponent = exponent := by omega
          rw [if_pos here, if_pos here, if_neg other]
        · rw [if_neg here, if_neg here]

theorem get?_insert (map : TermMap α) (exponent : Nat) (coeff : α) (other : Nat) :
    (map.insert exponent coeff).get? other =
      if exponent = other then addTo (map.get? other) coeff else map.get? other :=
  lookup_insertTerm ⟨exponent, coeff⟩ map.ascending other

theorem get?_foldl_insert (terms : List (Term α)) (map : TermMap α) (exponent : Nat) :
    (terms.foldl (fun map term => map.insert term.exponent term.coeff) map).get? exponent =
      (coefficients terms exponent).foldl addTo (map.get? exponent) := by
  induction terms generalizing map with
  | nil => rfl
  | cons term terms ih =>
      rw [List.foldl_cons, ih, get?_insert]
      by_cases same : term.exponent = exponent
      · simp [coefficients, same]
      · simp [coefficients, same]

/-- The terms of other powers do not matter for a power. -/
theorem get?_ofTerms (terms : List (Term α)) (exponent : Nat) :
    (ofTerms terms).get? exponent = total (coefficients terms exponent) :=
  get?_foldl_insert terms empty exponent

theorem eq_ofTerms_iff {map : TermMap α} {terms : List (Term α)} :
    map = ofTerms terms ↔ ∀ exponent, map.get? exponent = total (coefficients terms exponent) := by
  constructor
  · rintro rfl
    exact get?_ofTerms terms
  · intro totals
    refine ext_get? fun exponent => ?_
    rw [totals, get?_ofTerms]

/-- A single coefficient that is not zero is held as it is. -/
theorem total_get? (map : TermMap α) (exponent : Nat) :
    total (map.get? exponent).toList = map.get? exponent := by
  cases found : map.get? exponent with
  | none => rfl
  | some coeff =>
      have nonzero := nonzero_of_get? found
      exact if_neg (Bool.eq_false_iff.mp nonzero)

/-- The terms of a map have distinct powers, so that none of them is added to another one. -/
theorem ofTerms_of_perm {map : TermMap α} {terms : List (Term α)}
    (permuted : map.terms.Perm terms) : ofTerms terms = map := by
  symm
  rw [eq_ofTerms_iff]
  intro exponent
  have distinct := map.distinct_terms.perm permuted
  rw [coefficients_of_distinct distinct, ← map.distinct_terms.lookup_perm permuted]
  exact (total_get? map exponent).symm

end TermMap

end LongDivision
