import LongDivision.Proofs.Coefficient.Bounded
import LongDivision.Proofs.Expression.Outcome
import LongDivision.Proofs.TermMap.Difference

/-! Maps of bounded coefficients. What is read from an expression is at most `2 ^ 117`, however many
terms of one power there are, and so the sums of two expressions are finite.
-/

namespace LongDivision.TermMap

open Term

/-- All coefficients are finite, with absolute values of at most `2 ^ power`. -/
def Within (power : Nat) (map : TermMap Float) : Prop :=
  ∀ exponent, ∀ coeff ∈ map.get? exponent, Binary64.Within power coeff

section Insertion

variable {small power : Nat} (absorbed : small + 53 < power) (greatest : power ≤ 1023)
include absorbed greatest

theorem within_addTo {found : Option Float} (within : ∀ value ∈ found, Binary64.Within power value)
    {coeff : Float} (smallCoeff : Binary64.Within small coeff) :
    ∀ value ∈ addTo found coeff, Binary64.Within power value := by
  have sum : Binary64.Within power (found.elim coeff (· + coeff)) := by
    cases found with
    | none => exact smallCoeff.weaken (by omega)
    | some value => exact (within value rfl).add_small smallCoeff absorbed greatest
  intro value member
  rw [addTo] at member
  split at member
  · contradiction
  · cases member
    exact sum

theorem within_foldl_addTo {coeffs : List Float}
    (allSmall : ∀ coeff ∈ coeffs, Binary64.Within small coeff) {found : Option Float}
    (within : ∀ value ∈ found, Binary64.Within power value) :
    ∀ value ∈ coeffs.foldl addTo found, Binary64.Within power value := by
  induction coeffs generalizing found with
  | nil => exact within
  | cons coeff coeffs ih =>
      obtain ⟨first, rest⟩ := List.forall_mem_cons.mp allSmall
      exact ih rest (within_addTo absorbed greatest within first)

theorem within_ofTerms {terms : List (Term Float)}
    (allSmall : ∀ term ∈ terms, Binary64.Within small term.coeff) :
    (ofTerms terms).Within power := by
  intro exponent
  rw [get?_ofTerms]
  refine within_foldl_addTo absorbed greatest ?_ (by simp)
  intro coeff member
  obtain ⟨term, inside, rfl⟩ := List.mem_map.mp member
  exact allSmall term (List.mem_of_mem_filter inside)

end Insertion

theorem within_parse {limit : Nat} {text : List Char} {map : TermMap Float}
    (accepted : Expression.parse limit text = .ok map) : map.Within 117 := by
  obtain ⟨_, terms, tokens, rfl⟩ := Expression.parse_eq_ok_iff.mp accepted
  -- Above `2 ^ 117`, a coefficient of up to `2 ^ 63` is less than half a step and is absorbed.
  refine within_ofTerms (by decide : 63 + 53 < 117) (by decide) ?_
  intro term member
  obtain ⟨read, inside, rfl⟩ := List.mem_map.mp member
  obtain ⟨token, accepts⟩ := Expression.exists_accepts tokens inside
  exact .intCast accepts.form.natAbs_coeff_le

section Sums

variable {power : Nat} {map left right : TermMap Float}

theorem Within.isFinite (within : map.Within power) :
    ∀ term ∈ map.terms, term.coeff.isFinite = true :=
  fun term member => (within term.exponent _ (map.distinct_terms.lookup_of_mem member)).isFinite

theorem Within.getD (within : map.Within power) (exponent : Nat) :
    Binary64.Within power ((map.get? exponent).getD 0) := by
  cases found : map.get? exponent with
  | none => exact .zero power
  | some coeff => exact within exponent coeff found

theorem Within.not_nonfiniteSum (leftWithin : left.Within power) (rightWithin : right.Within power)
    (greatest : power ≤ 1022) : ¬ NonfiniteSum left right := by
  rintro ⟨exponent, _, special⟩
  have finite := ((leftWithin.getD exponent).add (rightWithin.getD exponent) greatest).isFinite
  rw [Binary64.isFinite_eq_false_iff.mpr special] at finite
  contradiction

end Sums

end LongDivision.TermMap
