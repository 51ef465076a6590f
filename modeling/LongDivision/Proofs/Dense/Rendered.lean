import LongDivision.Proofs.Coefficient.Distinct
import LongDivision.Proofs.Coefficient.Numerical

/-! What a polynomial is written as tells which one it is, up to zero slots in front and the signs
of zeros.
-/

namespace LongDivision.Dense

open Binary64

variable {left right poly : Dense Float}

theorem isNaN_coeff (numbers : ∀ slot ∈ poly.slots, slot.isNaN = false) (exponent : Nat) :
    (poly.coeff exponent).isNaN = false := by
  rw [coeff_eq_rowCoeff]
  by_cases within : exponent < poly.slots.length
  · rw [rowCoeff_eq_getElem within]
    exact numbers _ (List.getElem_mem _)
  · rw [rowCoeff_of_length_le (Nat.le_of_not_lt within)]
    rfl

/-- Polynomials are written differently unless all their coefficients have the same value. Only zero
is written as `0`, and nothing is written as an empty text, not even for coefficients that are no
numbers. -/
theorem render_identifies (leftNumbers : ∀ slot ∈ left.slots, slot.isNaN = false)
    (rightNumbers : ∀ slot ∈ right.slots, slot.isNaN = false) :
    (left.render = right.render ↔
      ∀ exponent, (left.coeff exponent == right.coeff exponent) = true) ∧
    ∀ poly : Dense Float, (poly.render = "0" ↔ poly.isZero = true) ∧ poly.render ≠ "" := by
  refine ⟨?_, fun poly =>
    ⟨legible_float.render_eq_zero_iff poly, legible_float.render_ne_empty poly⟩⟩
  rw [legible_float.render_eq_iff leftNumbers rightNumbers, nonzeroTerms_eq_iff (by decide)]
  refine forall_congr' fun exponent => ?_
  rw [← sameNumber_iff, SameNumber, isNaN_coeff leftNumbers]
  simp

/-- Zeros of both signs are left out, and a sum that is rounded up is told apart from what it should
be. -/
theorem render_identifies_of_infinite_slot :
    (∀ slot ∈ (⟨-0, [1 / 0, 0, -0.5]⟩ : Dense Float).slots, slot.isNaN = false) ∧
    (∀ slot ∈ (⟨1 / 0, [-0, -0.5]⟩ : Dense Float).slots, slot.isNaN = false) ∧
    (⟨-0, [1 / 0, 0, -0.5]⟩ : Dense Float).render = (⟨1 / 0, [-0, -0.5]⟩ : Dense Float).render ∧
    (⟨0.1 + 0.2, [1]⟩ : Dense Float).render ≠ (⟨0.3, [1]⟩ : Dense Float).render := by
  have numbers : ∀ slot ∈ (⟨-0, [1 / 0, 0, -0.5]⟩ : Dense Float).slots, slot.isNaN = false := by
    decide
  have others : ∀ slot ∈ (⟨1 / 0, [-0, -0.5]⟩ : Dense Float).slots, slot.isNaN = false := by decide
  have same (exponent : Nat) : ((⟨-0, [1 / 0, 0, -0.5]⟩ : Dense Float).coeff exponent ==
      (⟨1 / 0, [-0, -0.5]⟩ : Dense Float).coeff exponent) = true := by
    match exponent with
    | 0 | 1 | 2 | 3 => decide
    | exponent + 4 =>
        have beyond (poly : Dense Float) (short : poly.size ≤ 4) : poly.coeff (exponent + 4) = 0 :=
          coeff_of_size_le (by omega)
        rw [beyond _ (by decide), beyond _ (by decide)]
        decide
  have rounded : ∀ slot ∈ (⟨0.1 + 0.2, [1]⟩ : Dense Float).slots, slot.isNaN = false := by decide
  have exact : ∀ slot ∈ (⟨0.3, [1]⟩ : Dense Float).slots, slot.isNaN = false := by decide
  refine ⟨numbers, others, (render_identifies numbers others).1.mpr same, fun equal => ?_⟩
  have leading := (render_identifies rounded exact).1.mp equal 1
  exact absurd leading (by decide)

end LongDivision.Dense
