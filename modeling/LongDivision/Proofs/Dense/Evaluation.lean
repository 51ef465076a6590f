import LongDivision.Proofs.Dense.Laws
import Mathlib.Algebra.Polynomial.Degree.Lemmas
import Mathlib.Data.List.GetD

/-! Horner's rule over coefficients with exact arithmetic. It gives the value of the polynomial that a
row stands for, so that evaluation at a point turns the operations of polynomials into those of their
values.
-/

namespace LongDivision.Dense

section Horner

variable {α : Type} [Zero α] [Add α] [Mul α]

/-- What Horner's rule has come to once it has read the slots up to a position, counted from the
leading one. -/
def accumulated (poly : Dense α) (point : α) (position : Nat) : α :=
  (poly.slots.take (position + 1)).foldl (fun value slot => value * point + slot) 0

@[simp]
theorem accumulated_degree (poly : Dense α) (point : α) :
    poly.accumulated point poly.degree = poly.eval point := by
  have whole : poly.slots.take (poly.degree + 1) = poly.slots :=
    List.take_of_length_le (Nat.le_refl poly.slots.length)
  rw [accumulated, whole, eval]

theorem accumulated_succ {poly : Dense α} {position : Nat} (within : position < poly.degree)
    (point : α) :
    poly.accumulated point (position + 1) =
      poly.accumulated point position * point + poly.slots.getD (position + 1) 0 := by
  have inRow : position + 1 < poly.slots.length := Nat.succ_lt_succ within
  rw [accumulated, List.take_succ_eq_append_getElem inRow, List.foldl_append,
    List.getD_eq_getElem _ _ inRow]
  rfl

end Horner

open Polynomial

variable {R : Type}

section Value

variable [CommSemiring R]

/-- Every further slot multiplies what Horner's rule started with by the point. -/
theorem foldl_horner (row : List R) (point start : R) :
    row.foldl (fun value slot => value * point + slot) start =
      start * point ^ row.length + (rowPolynomial row).eval point := by
  induction row generalizing start with
  | nil => rw [List.foldl_nil, List.length_nil, rowPolynomial, pow_zero, mul_one, eval_zero, add_zero]
  | cons slot lower ih =>
      rw [List.foldl_cons, ih, rowPolynomial, eval_add, eval_monomial, List.length_cons, pow_succ]
      ring

theorem eval_toPolynomial (poly : Dense R) (point : R) :
    poly.toPolynomial.eval point = poly.eval point := by
  rw [eval, foldl_horner, zero_mul, zero_add, toPolynomial]

theorem natDegree_toPolynomial_lt (poly : Dense R) : poly.toPolynomial.natDegree < poly.size := by
  apply Nat.lt_succ_of_le
  rw [natDegree_le_iff_coeff_eq_zero]
  intro exponent above
  rw [coeff_toPolynomial, coeff_of_size_le above]

theorem eval_eq_sum (poly : Dense R) (point : R) :
    poly.eval point =
      ∑ exponent ∈ Finset.range poly.size, poly.coeff exponent * point ^ exponent := by
  rw [← eval_toPolynomial, eval_eq_sum_range' poly.natDegree_toPolynomial_lt]
  simp only [coeff_toPolynomial]

end Value

/-- The value at a point is the sum of all coefficients times powers of the point, and whatever the
sizes of the operands are, the value of a sum, a difference, a product or a multiple is the sum, the
difference, the product or the multiple of the values. -/
theorem eval_homomorphism [CommRing R] (left right : Dense R) (factor point : R) :
    left.eval point =
      ∑ exponent ∈ Finset.range left.size, left.coeff exponent * point ^ exponent ∧
    (left + right).eval point = left.eval point + right.eval point ∧
    (left - right).eval point = left.eval point - right.eval point ∧
    (left * right).eval point = left.eval point * right.eval point ∧
    (left.scale factor).eval point = left.eval point * factor := by
  simp only [← eval_toPolynomial]
  refine ⟨?_, ?_, ?_, ?_, ?_⟩
  · rw [eval_toPolynomial, eval_eq_sum]
  · rw [toPolynomial_add, eval_add]
  · rw [toPolynomial_sub, eval_sub]
  · rw [toPolynomial_mul, eval_mul]
  · rw [toPolynomial_scale, eval_mul, eval_C]

end LongDivision.Dense
