import LongDivision.Proofs.Division.Checked
import LongDivision.Proofs.Division.Identity

/-! The integer polynomials that checked rows stand for. Where no coefficient is lost, the quotient
times the divisor plus the remainder is the dividend.
-/

namespace LongDivision

open LongDivision.Dense Polynomial

namespace Dense

noncomputable def integerPolynomial (poly : Dense Checked) : ℤ[X] :=
  rowPolynomial (poly.slots.map Checked.value)

theorem coeff_integerPolynomial (poly : Dense Checked) (exponent : Nat) :
    poly.integerPolynomial.coeff exponent = (poly.coeff exponent).value := by
  have values : List.Forall₂ (fun (checked : Checked) (integer : Int) => integer = checked.value)
      poly.slots (poly.slots.map Checked.value) := by
    rw [List.forall₂_map_right_iff, List.forall₂_same]
    exact fun _ _ => rfl
  rw [integerPolynomial, coeff_rowPolynomial, coeff_eq_rowCoeff]
  refine related_rowCoeff ?_ values exponent
  rfl

/-- The row of rational numbers that are the integers of a checked row. -/
def rational (poly : Dense Checked) : Dense ℚ :=
  ⟨poly.lead.value, poly.lower.map fun slot => (slot.value : ℚ)⟩

theorem related_rational (poly : Dense Checked) :
    Related (Agrees fun (number : ℚ) (integer : Int) => number = integer) poly.rational poly := by
  have agrees (slot : Checked) :
      Agrees (fun (number : ℚ) (integer : Int) => number = integer) slot.value slot := by
    rintro integer rfl
    rfl
  refine .cons (agrees poly.lead) ?_
  change List.Forall₂ _ (poly.lower.map fun slot => (slot.value : ℚ)) poly.lower
  rw [List.forall₂_map_left_iff, List.forall₂_same]
  exact fun slot _ => agrees slot

theorem toPolynomial_of_related {poly : Dense ℚ} {checked : Dense Checked}
    (agrees : Related (Agrees fun (number : ℚ) (integer : Int) => number = integer) poly checked)
    (kept : checked.Kept) :
    poly.toPolynomial = checked.integerPolynomial.map (Int.castRingHom ℚ) := by
  ext exponent
  rw [coeff_toPolynomial, coeff_map, coeff_integerPolynomial]
  exact agrees.coeff (.zero includesIntegers_rat) exponent _
    (Checked.eq_exact_of_ne_lost (kept_iff.mp kept exponent))

theorem lead_of_divide {α : Type} [Zero α] [One α] [Neg α] [Add α] [Mul α] [Div α] [BEq α]
    {dividend divisor : Dense α} {division : Division α}
    (divided : dividend.divide divisor = .ok division) : (divisor.lead == 0) = false := by
  unfold divide at divided
  split at divided
  · contradiction
  · split at divided
    · contradiction
    · rename_i nonzero
      exact Bool.eq_false_iff.mpr nonzero

variable {dividend divisor : Dense Checked} {division : Division Checked}

theorem divide_integerPolynomial (dividendKept : dividend.Kept) (divisorKept : divisor.Kept)
    (divided : dividend.divide divisor = .ok division) (quotientKept : division.quotient.Kept)
    (remainderKept : division.remainder.Kept) :
    dividend.integerPolynomial =
        division.quotient.integerPolynomial * divisor.integerPolynomial +
          division.remainder.integerPolynomial ∧
      division.remainder.integerPolynomial.degree < divisor.integerPolynomial.degree := by
  obtain ⟨rationals, accepted, quotients, remainders⟩ := divide_agrees includesIntegers_rat
    (related_rational dividend) (related_rational divisor) dividendKept divisorKept divided
    quotientKept remainderKept
  have lead : divisor.rational.lead ≠ 0 := beq_eq_false_iff_ne.mp (lead_of_divide accepted)
  obtain ⟨others, same, reduced, identity⟩ := divide_toPolynomial dividend.rational lead
  rw [accepted] at same
  cases same
  have small := reduced.degree_lt lead
  rw [toPolynomial_of_related quotients quotientKept,
    toPolynomial_of_related (related_rational divisor) divisorKept,
    toPolynomial_of_related remainders remainderKept,
    toPolynomial_of_related (related_rational dividend) dividendKept, ← Polynomial.map_mul,
    ← Polynomial.map_add] at identity
  rw [toPolynomial_of_related remainders remainderKept,
    toPolynomial_of_related (related_rational divisor) divisorKept,
    degree_map_eq_of_injective (Int.cast_injective),
    degree_map_eq_of_injective (Int.cast_injective)] at small
  exact ⟨(map_injective _ Int.cast_injective identity).symm, small⟩

end Dense

end LongDivision
