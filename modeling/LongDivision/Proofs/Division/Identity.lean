import LongDivision.Proofs.Dense.Polynomial
import LongDivision.Proofs.Division.Run
import Mathlib.Algebra.Field.Defs
import Mathlib.Algebra.Polynomial.Degree.Domain

/-! Division with remainder over a field: the quotient times the divisor plus the remainder is the
dividend, and no other quotient and reduced remainder have that property.
-/

namespace LongDivision

open LongDivision.Dense Polynomial

variable {K : Type} [Field K] {divisor quotient remainder : Dense K} {division : Division K}

namespace Division

theorem lead_sub_nextTerm_mul (lead : divisor.lead ≠ 0)
    (reaches : divisor.degree ≤ remainder.degree) :
    (remainder - nextTerm divisor remainder * divisor).lead = 0 := by
  obtain ⟨gap, aligned⟩ := Nat.exists_eq_add_of_le reaches
  have product : (nextTerm divisor remainder * divisor).toPolynomial.coeff remainder.degree =
      remainder.lead := by
    rw [toPolynomial_mul, nextTerm, toPolynomial_leadingTerm, aligned, Nat.add_sub_cancel,
      Nat.add_sub_cancel_left, coeff_monomial_mul, coeff_toPolynomial, coeff_degree,
      div_mul_cancel₀ _ lead]
  rw [← coeff_degree, degree_sub_nextTerm_mul reaches, ← coeff_toPolynomial, toPolynomial_sub,
    coeff_sub, product, coeff_toPolynomial, coeff_degree, sub_self]

/-- The slot that a step drops is zero, so that nothing is lost with it. -/
theorem toPolynomial_nextRemainder (lead : divisor.lead ≠ 0)
    (reaches : divisor.degree ≤ remainder.degree) :
    (nextRemainder divisor remainder (nextTerm divisor remainder)).toPolynomial =
      remainder.toPolynomial - (nextTerm divisor remainder).toPolynomial * divisor.toPolynomial := by
  rw [nextRemainder, toPolynomial_dropLead (lead_sub_nextTerm_mul lead reaches), toPolynomial_sub,
    toPolynomial_mul]

/-- Two divisions of one polynomial differ by a multiple of the divisor, which has at least its
degree unless it is zero. -/
theorem unique {divisor quotient remainder otherQuotient otherRemainder : K[X]}
    (same : quotient * divisor + remainder = otherQuotient * divisor + otherRemainder)
    (reduced : remainder.degree < divisor.degree)
    (otherReduced : otherRemainder.degree < divisor.degree) :
    quotient = otherQuotient ∧ remainder = otherRemainder := by
  have multiple : (quotient - otherQuotient) * divisor = otherRemainder - remainder := by
    rw [sub_mul, sub_eq_sub_iff_add_eq_add, same, add_comm]
  have small : (otherRemainder - remainder).degree < divisor.degree :=
    lt_of_le_of_lt (degree_sub_le _ _) (max_lt otherReduced reduced)
  have quotients : quotient = otherQuotient := by
    by_cases zero : quotient - otherQuotient = 0
    · exact sub_eq_zero.mp zero
    · have large := degree_le_mul_left divisor zero
      rw [mul_comm, multiple] at large
      exact absurd small (not_lt_of_ge large)
  refine ⟨quotients, ?_⟩
  rw [quotients] at same
  exact add_left_cancel same

variable [DecidableEq K]

/-- What the quotient and the remainder stand for together is the same before and after each
step. -/
theorem Runs.identity (lead : divisor.lead ≠ 0) (run : Runs divisor quotient remainder division) :
    division.quotient.toPolynomial * divisor.toPolynomial + division.remainder.toPolynomial =
      quotient.toPolynomial * divisor.toPolynomial + remainder.toPolynomial := by
  induction run with
  | stop finished => rfl
  | @step quotient remainder rest unfinished later ih =>
      obtain ⟨_, reaches⟩ := ended_eq_false_iff.mp unfinished
      change rest.quotient.toPolynomial * divisor.toPolynomial + rest.remainder.toPolynomial = _
      rw [ih, toPolynomial_add, toPolynomial_nextRemainder lead reaches]
      ring

end Division

namespace Dense

variable [DecidableEq K]

theorem Reduced.degree_lt (lead : divisor.lead ≠ 0) (reduced : Reduced divisor remainder) :
    remainder.toPolynomial.degree < divisor.toPolynomial.degree := by
  rw [degree_toPolynomial lead]
  rcases reduced with zero | below
  · rw [toPolynomial_of_isZero zero, degree_zero]
    exact WithBot.bot_lt_coe _
  · exact lt_of_lt_of_le (degree_toPolynomial_lt remainder) (WithBot.coe_le_coe.mpr below)

theorem divide_toPolynomial (dividend : Dense K) (lead : divisor.lead ≠ 0) :
    ∃ division, dividend.divide divisor = .ok division ∧ Reduced divisor division.remainder ∧
      division.quotient.toPolynomial * divisor.toPolynomial + division.remainder.toPolynomial =
        dividend.toPolynomial := by
  obtain ⟨division, accepted⟩ := divide_exists dividend (beq_eq_false_iff_ne.mpr lead)
  refine ⟨division, accepted, ?_⟩
  rcases divide_runs (beq_self_eq_true 0) accepted with ⟨isZero, rfl⟩ | ⟨_, run⟩
  · refine ⟨.inl (isZero_zero (beq_self_eq_true 0)), ?_⟩
    rw [toPolynomial_of_isZero isZero, toPolynomial_zero, zero_mul, add_zero]
  · refine ⟨run.reduced, ?_⟩
    rw [run.identity lead, toPolynomial_zero, zero_mul, zero_add]

/-- Every division by a polynomial with a nonzero leading slot succeeds, and the quotient times the
divisor plus the remainder has the coefficients of the dividend. -/
theorem divide_identity (dividend divisor : Dense K) (lead : divisor.lead ≠ 0) :
    ∃ division, dividend.divide divisor = .ok division ∧
      (∀ exponent, (division.quotient * divisor + division.remainder).coeff exponent =
        dividend.coeff exponent) ∧
      Reduced divisor division.remainder := by
  obtain ⟨division, accepted, reduced, identity⟩ := divide_toPolynomial dividend lead
  refine ⟨division, accepted, ?_, reduced⟩
  rw [← toPolynomial_eq_iff, toPolynomial_add, toPolynomial_mul, identity]

theorem divide_identity_of_padded_dividend :
    (2 : ℚ) ≠ 0 ∧ ∃ division, (⟨0, [3, 0, 1]⟩ : Dense ℚ).divide ⟨2, [0, 1]⟩ = .ok division ∧
      (∀ exponent, (division.quotient * ⟨2, [0, 1]⟩ + division.remainder).coeff exponent =
        (⟨0, [3, 0, 1]⟩ : Dense ℚ).coeff exponent) ∧
      Reduced ⟨2, [0, 1]⟩ division.remainder :=
  ⟨two_ne_zero, divide_identity ⟨0, [3, 0, 1]⟩ ⟨2, [0, 1]⟩ two_ne_zero⟩

/-- Division takes a product and a reduced summand apart again, and they cannot be taken apart in
any other way. -/
theorem divide_mul_add (quotient divisor remainder : Dense K) (lead : divisor.lead ≠ 0)
    (reduced : Reduced divisor remainder) :
    (∃ division, (quotient * divisor + remainder).divide divisor = .ok division ∧
      (∀ exponent, division.quotient.coeff exponent = quotient.coeff exponent) ∧
      (∀ exponent, division.remainder.coeff exponent = remainder.coeff exponent)) ∧
    ∀ otherQuotient otherRemainder : Dense K, Reduced divisor otherRemainder →
      (∀ exponent, (otherQuotient * divisor + otherRemainder).coeff exponent =
        (quotient * divisor + remainder).coeff exponent) →
      (∀ exponent, otherQuotient.coeff exponent = quotient.coeff exponent) ∧
      (∀ exponent, otherRemainder.coeff exponent = remainder.coeff exponent) := by
  have composed : (quotient * divisor + remainder).toPolynomial =
      quotient.toPolynomial * divisor.toPolynomial + remainder.toPolynomial := by
    rw [toPolynomial_add, toPolynomial_mul]
  constructor
  · obtain ⟨division, accepted, ended, identity⟩ :=
      divide_toPolynomial (quotient * divisor + remainder) lead
    have equal := Division.unique (identity.trans composed) (ended.degree_lt lead)
      (reduced.degree_lt lead)
    exact ⟨division, accepted, toPolynomial_eq_iff.mp equal.1, toPolynomial_eq_iff.mp equal.2⟩
  · intro otherQuotient otherRemainder otherReduced same
    rw [← toPolynomial_eq_iff, toPolynomial_add, toPolynomial_mul, composed] at same
    have equal := Division.unique same (otherReduced.degree_lt lead) (reduced.degree_lt lead)
    exact ⟨toPolynomial_eq_iff.mp equal.1, toPolynomial_eq_iff.mp equal.2⟩

theorem divide_mul_add_of_padded_remainder :
    Reduced (⟨2, [0, 1]⟩ : Dense ℚ) ⟨0, [5]⟩ ∧
    (∃ division, (⟨0, [3]⟩ * ⟨2, [0, 1]⟩ + ⟨0, [5]⟩ : Dense ℚ).divide ⟨2, [0, 1]⟩ = .ok division ∧
      (∀ exponent, division.quotient.coeff exponent = (⟨0, [3]⟩ : Dense ℚ).coeff exponent) ∧
      (∀ exponent, division.remainder.coeff exponent = (⟨0, [5]⟩ : Dense ℚ).coeff exponent)) ∧
    (∀ exponent, (⟨3, []⟩ : Dense ℚ).coeff exponent = (⟨0, [3]⟩ : Dense ℚ).coeff exponent) ∧
    ∀ exponent, (⟨5, []⟩ : Dense ℚ).coeff exponent = (⟨0, [5]⟩ : Dense ℚ).coeff exponent := by
  have reduced : Reduced (⟨2, [0, 1]⟩ : Dense ℚ) ⟨0, [5]⟩ := .inr (by decide)
  have parts := divide_mul_add ⟨0, [3]⟩ ⟨2, [0, 1]⟩ ⟨0, [5]⟩ two_ne_zero reduced
  refine ⟨reduced, parts.1, parts.2 ⟨3, []⟩ ⟨5, []⟩ (.inr (by decide)) ?_⟩
  rw [← toPolynomial_eq_iff]
  simp only [toPolynomial_add, toPolynomial_mul]
  simp [toPolynomial, slots, rowPolynomial]

end Dense

end LongDivision
