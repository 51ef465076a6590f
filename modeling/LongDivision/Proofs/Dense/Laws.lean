import LongDivision.Proofs.Dense.Polynomial

/-! The laws of a commutative ring for rows of slots, over coefficients with exact arithmetic. They
hold for the rows themselves and not only for the polynomials they stand for: both sides of a law
have the same number of slots, leading zeros included.
-/

namespace LongDivision.Dense

open Polynomial

variable {R : Type}

theorem size_pos (poly : Dense R) : 0 < poly.size :=
  Nat.succ_pos poly.lower.length

section Extensionality

variable [Semiring R]

theorem rowCoeff_ext {left right : List R} (length : left.length = right.length)
    (coeffs : ∀ exponent, rowCoeff left exponent = rowCoeff right exponent) : left = right := by
  refine List.ext_getElem length fun index inLeft inRight => ?_
  have slot := coeffs (left.length - 1 - index)
  have position : left.length - 1 - (left.length - 1 - index) = index := by omega
  rw [rowCoeff_eq_getElem (by omega), rowCoeff_eq_getElem (by omega)] at slot
  simpa only [← length, position] using slot

/-- A row is known by its size and its polynomial. -/
theorem eq_of_toPolynomial {left right : Dense R} (size : left.size = right.size)
    (same : left.toPolynomial = right.toPolynomial) : left = right := by
  have rows : left.slots = right.slots := by
    refine rowCoeff_ext size fun exponent => ?_
    rw [← coeff_eq_rowCoeff, ← coeff_eq_rowCoeff]
    exact toPolynomial_eq_iff.mp same exponent
  rw [← ofSlots_slots left, rows, ofSlots_slots]

end Extensionality

section Constants

variable [Semiring R]

theorem slots_scale (poly : Dense R) (factor : R) :
    (poly.scale factor).slots = poly.slots.map (· * factor) := rfl

theorem coeff_scale (poly : Dense R) (factor : R) (exponent : Nat) :
    (poly.scale factor).coeff exponent = poly.coeff exponent * factor := by
  by_cases within : exponent < poly.size
  · rw [coeff_eq_rowCoeff, slots_scale, rowCoeff_map within, coeff_eq_rowCoeff]
  · have above := Nat.le_of_not_lt within
    rw [coeff_of_size_le above, zero_mul, coeff_of_size_le (by rwa [size_scale])]

theorem toPolynomial_scale (poly : Dense R) (factor : R) :
    (poly.scale factor).toPolynomial = poly.toPolynomial * C factor := by
  ext exponent
  rw [coeff_toPolynomial, coeff_scale, coeff_mul_C, coeff_toPolynomial]

theorem toPolynomial_singleton (constant : R) :
    (ofSlots [constant]).toPolynomial = C constant := by
  rw [toPolynomial, slots_ofSlots (List.cons_ne_nil _ _), rowPolynomial, rowPolynomial, add_zero]
  rfl

end Constants

section Laws

variable [CommRing R]

protected theorem add_comm (left right : Dense R) : left + right = right + left := by
  apply eq_of_toPolynomial
  · rw [size_add, size_add, Nat.max_comm]
  · rw [toPolynomial_add, toPolynomial_add, add_comm]

protected theorem add_assoc (first second third : Dense R) :
    first + second + third = first + (second + third) := by
  apply eq_of_toPolynomial
  · simp only [size_add, Nat.max_assoc]
  · simp only [toPolynomial_add, add_assoc]

protected theorem mul_comm (left right : Dense R) : left * right = right * left := by
  apply eq_of_toPolynomial
  · rw [size_mul, size_mul, Nat.add_comm]
  · rw [toPolynomial_mul, toPolynomial_mul, mul_comm]

protected theorem mul_assoc (first second third : Dense R) :
    first * second * third = first * (second * third) := by
  apply eq_of_toPolynomial
  · have positive := size_pos second
    simp only [size_mul]
    omega
  · simp only [toPolynomial_mul, mul_assoc]

protected theorem add_mul (first second factor : Dense R) :
    (first + second) * factor = first * factor + second * factor := by
  apply eq_of_toPolynomial
  · have positive := size_pos factor
    simp only [size_mul, size_add]
    omega
  · simp only [toPolynomial_mul, toPolynomial_add, add_mul]

theorem scale_eq_mul (poly : Dense R) (factor : R) :
    poly.scale factor = poly * ofSlots [factor] := by
  apply eq_of_toPolynomial
  · rw [size_scale, size_mul]
    rfl
  · rw [toPolynomial_scale, toPolynomial_mul, toPolynomial_singleton]

theorem coeff_add_sub_cancel (left right : Dense R) (exponent : Nat) :
    (left + right - right).coeff exponent = left.coeff exponent := by
  apply toPolynomial_eq_iff.mp
  rw [toPolynomial_sub, toPolynomial_add, add_sub_cancel_right]

/-- Sums and products of rows obey the laws of a commutative ring slot by slot, scaling is
multiplication by a constant, and subtraction undoes addition up to the zeros it may leave in
front. -/
theorem ring_laws (first second third : Dense R) (factor : R) :
    first + second = second + first ∧
    first + second + third = first + (second + third) ∧
    first * second = second * first ∧
    first * second * third = first * (second * third) ∧
    (first + second) * third = first * third + second * third ∧
    first.scale factor = first * ofSlots [factor] ∧
    ∀ exponent, (first + second - second).coeff exponent = first.coeff exponent :=
  ⟨Dense.add_comm first second, Dense.add_assoc first second third, Dense.mul_comm first second,
    Dense.mul_assoc first second third, Dense.add_mul first second third,
    scale_eq_mul first factor, coeff_add_sub_cancel first second⟩

end Laws

end LongDivision.Dense
