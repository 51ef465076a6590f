import LongDivision.Proofs.Dense.Evaluation
import LongDivision.Proofs.Division.Identity
import LongDivision.Proofs.Division.InPlace

/-! Division by a linear polynomial `x - a`. Its loop computes what Horner's rule computes at `a`: the
quotient has the intermediate values for slots, and the remainder is the last one, the value at `a`.
-/

namespace LongDivision

open LongDivision.Dense Polynomial

namespace Division

/-- What stands further behind than the divisor reaches is still as it was. -/
theorem slotAfter_of_beyond {α : Type} [Zero α] [Sub α] [Mul α] [Div α] (dividend divisor : Dense α)
    {step position : Nat} (beyond : step + divisor.degree ≤ position) :
    slotAfter dividend divisor step position = dividend.slots.getD position 0 := by
  induction step with
  | zero => rfl
  | succ step ih =>
      rw [slotAfter_succ, if_neg (by omega), ih (by omega)]

variable {K : Type} [Field K] (dividend : Dense K) (point : K)

/-- The slot that a step divides has been changed by one step only, the one before it. -/
theorem slotAfter_linear {step : Nat} (within : step ≤ dividend.degree) :
    slotAfter dividend ⟨1, [-point]⟩ step step = dividend.accumulated point step := by
  induction step with
  | zero =>
      change dividend.lead = 0 * point + dividend.lead
      rw [zero_mul, zero_add]
  | succ step ih =>
      have untouched := slotAfter_of_beyond dividend ⟨1, [-point]⟩ (Nat.le_refl (step + 1))
      have constant : (⟨1, [-point]⟩ : Dense K).slots.getD (step + 1 - step) 0 = -point := by
        rw [Nat.add_sub_cancel_left]
        rfl
      rw [slotAfter_succ, if_pos ⟨Nat.lt_succ_self step, Nat.le_refl _⟩, untouched, constant,
        quotientSlot, ih (Nat.le_of_succ_le within), div_one, accumulated_succ within]
      ring

end Division

namespace Dense

variable {K : Type} [Field K]

theorem toPolynomial_linear (point : K) :
    (⟨1, [-point]⟩ : Dense K).toPolynomial = X - C point := by
  have lead : monomial [-point].length (1 : K) = X := monomial_one_one_eq_X
  have constant : monomial ([] : List K).length (-point) = -C point := C_neg
  rw [toPolynomial, slots, rowPolynomial, rowPolynomial, rowPolynomial, lead, constant, add_zero,
    sub_eq_add_neg]

variable [DecidableEq K]

theorem lead_linear (point : K) : ((⟨1, [-point]⟩ : Dense K).lead == 0) = false :=
  beq_eq_false_iff_ne.mpr one_ne_zero

variable {dividend : Dense K} {point : K} {division : Division K}

/-- The remainder is a constant, and it is the value where the divisor vanishes. -/
theorem toPolynomial_remainder_linear (accepted : dividend.divide ⟨1, [-point]⟩ = .ok division) :
    division.remainder.toPolynomial = C (dividend.eval point) := by
  have lead := beq_eq_false_iff_ne.mp (lead_linear point)
  obtain ⟨other, otherAccepted, reduced, identity⟩ := divide_toPolynomial dividend lead
  rw [accepted] at otherAccepted
  cases otherAccepted
  have small := reduced.degree_lt lead
  rw [toPolynomial_linear, degree_X_sub_C, Nat.WithBot.lt_one_iff_le_zero] at small
  have constant := eq_C_of_degree_le_zero small
  have value := congrArg (Polynomial.eval point) identity
  rw [toPolynomial_linear, constant, Polynomial.eval_add, Polynomial.eval_mul, Polynomial.eval_sub,
    eval_X, eval_C, eval_C, sub_self, mul_zero, zero_add, eval_toPolynomial] at value
  rw [constant, value]

theorem slots_quotient_linear (accepted : dividend.divide ⟨1, [-point]⟩ = .ok division)
    (nonzero : dividend.isZero = false) (reaches : 1 ≤ dividend.degree) :
    division.quotient.slots =
      (List.range dividend.degree).map (dividend.accumulated point) := by
  obtain ⟨other, otherAccepted, inPlace⟩ := divide_inPlace numerical_eq nonzero (lead_linear point)
    (fun _ _ => trivial) reaches
  rw [accepted] at otherAccepted
  cases otherAccepted
  have found := inPlace.quotient
  rw [List.forall₂_eq_eq_eq] at found
  have steps : dividend.degree - (⟨1, [-point]⟩ : Dense K).degree + 1 = dividend.degree :=
    Nat.sub_add_cancel reaches
  rw [found, steps]
  refine List.map_congr_left fun position within => ?_
  rw [Division.quotientSlot, Division.slotAfter_linear dividend point
    (Nat.le_of_lt (List.mem_range.mp within)), div_one]

/-- Division by `x - point` always succeeds, and its remainder is the value at the point. The slots of
the quotient are what Horner's rule goes through before it comes to that value. -/
theorem divide_linear (dividend : Dense K) (point : K) :
    ∃ division, dividend.divide ⟨1, [-point]⟩ = .ok division ∧
      division.remainder.coeff 0 = dividend.eval point ∧
      (∀ exponent, exponent ≠ 0 → division.remainder.coeff exponent = 0) ∧
      (dividend.isZero = false → 1 ≤ dividend.degree →
        division.quotient.slots =
          (List.range dividend.degree).map (dividend.accumulated point)) := by
  obtain ⟨division, accepted⟩ := divide_exists dividend (lead_linear point)
  have remainder := toPolynomial_remainder_linear accepted
  refine ⟨division, accepted, ?_, fun exponent positive => ?_, slots_quotient_linear accepted⟩
  · rw [← coeff_toPolynomial, remainder, coeff_C_zero]
  · rw [← coeff_toPolynomial, remainder, coeff_C_of_ne_zero positive]

/-- The point is a root, so that the loop ends after one of three steps. -/
theorem divide_linear_of_root :
    (⟨1, [-1, 0, 0]⟩ : Dense ℚ).isZero = false ∧ 1 ≤ (⟨1, [-1, 0, 0]⟩ : Dense ℚ).degree ∧
    ∃ division, (⟨1, [-1, 0, 0]⟩ : Dense ℚ).divide ⟨1, [-1]⟩ = .ok division ∧
      division.remainder.coeff 0 = 0 ∧ division.remainder.coeff 1 = 0 ∧
      division.quotient.slots = [1, 0, 0] := by
  have nonzero : (⟨1, [-1, 0, 0]⟩ : Dense ℚ).isZero = false := by decide
  have reaches : 1 ≤ (⟨1, [-1, 0, 0]⟩ : Dense ℚ).degree := by decide
  obtain ⟨division, accepted, value, zeros, found⟩ := divide_linear (⟨1, [-1, 0, 0]⟩ : Dense ℚ) 1
  refine ⟨nonzero, reaches, division, accepted, ?_, zeros 1 one_ne_zero, ?_⟩
  · rw [value]
    norm_num [eval, slots]
  · rw [found nonzero reaches]
    norm_num [degree, List.range_succ, accumulated, slots]

end Dense

end LongDivision
