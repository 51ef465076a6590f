import LongDivision.Proofs.Dense.Slots
import Mathlib.Algebra.Polynomial.Degree.Operations

/-! The polynomial that a row of slots stands for, over coefficients with exact arithmetic.
-/

namespace LongDivision.Dense

open Polynomial

variable {R : Type}

section Denotation

variable [Semiring R]

noncomputable def rowPolynomial : (row : List R) → R[X]
  | [] => 0
  | slot :: lower => monomial lower.length slot + rowPolynomial lower

noncomputable def toPolynomial (poly : Dense R) : R[X] :=
  rowPolynomial poly.slots

theorem coeff_rowPolynomial (row : List R) (exponent : Nat) :
    (rowPolynomial row).coeff exponent = rowCoeff row exponent := by
  induction row with
  | nil => rfl
  | cons slot lower ih =>
      rw [rowPolynomial, coeff_add, coeff_monomial, ih, rowCoeff]
      by_cases leading : exponent = lower.length
      · rw [if_pos leading.symm, if_pos leading, rowCoeff_of_length_le (Nat.le_of_eq leading.symm),
          add_zero]
      · rw [if_neg (Ne.symm leading), if_neg leading, zero_add]

@[simp]
theorem coeff_toPolynomial (poly : Dense R) (exponent : Nat) :
    poly.toPolynomial.coeff exponent = poly.coeff exponent := by
  rw [toPolynomial, coeff_rowPolynomial, coeff_eq_rowCoeff]

theorem toPolynomial_eq_iff {left right : Dense R} :
    left.toPolynomial = right.toPolynomial ↔
      ∀ exponent, left.coeff exponent = right.coeff exponent := by
  simp only [Polynomial.ext_iff, coeff_toPolynomial]

theorem degree_toPolynomial_lt (poly : Dense R) : poly.toPolynomial.degree < poly.size := by
  rw [degree_lt_iff_coeff_zero]
  intro exponent above
  rw [coeff_toPolynomial, coeff_of_size_le above]

theorem degree_toPolynomial {poly : Dense R} (lead : poly.lead ≠ 0) :
    poly.toPolynomial.degree = poly.degree := by
  apply degree_eq_of_le_of_coeff_ne_zero
  · rw [degree_le_iff_coeff_zero]
    intro exponent above
    have beyond : poly.size ≤ exponent := WithBot.coe_lt_coe.mp above
    rw [coeff_toPolynomial, coeff_of_size_le beyond]
  · rwa [coeff_toPolynomial, coeff_degree]

@[simp]
theorem toPolynomial_zero : (zero : Dense R).toPolynomial = 0 := by
  simp only [toPolynomial, slots, zero, rowPolynomial, map_zero, add_zero]

theorem rowPolynomial_replicate_zero (size : Nat) :
    rowPolynomial (List.replicate size (0 : R)) = 0 := by
  ext exponent
  rw [coeff_rowPolynomial, rowCoeff_replicate_zero, coeff_zero]

@[simp]
theorem toPolynomial_leadingTerm (coeff : R) (size : Nat) :
    (leadingTerm coeff size).toPolynomial = monomial (size - 1) coeff := by
  rw [toPolynomial, slots, leadingTerm, rowPolynomial, List.length_replicate,
    rowPolynomial_replicate_zero, add_zero]

theorem toPolynomial_dropLead {poly : Dense R} (cancelled : poly.lead = 0) :
    poly.dropLead.toPolynomial = poly.toPolynomial := by
  obtain ⟨lead, lower⟩ := poly
  dsimp only at cancelled
  subst cancelled
  cases lower with
  | nil => rfl
  | cons next lower =>
      simp only [dropLead, ofSlots, toPolynomial, slots, rowPolynomial, map_zero, zero_add]

theorem toPolynomial_of_isZero [BEq R] [LawfulBEq R] {poly : Dense R}
    (isZero : poly.isZero = true) : poly.toPolynomial = 0 := by
  have row : poly.slots = List.replicate poly.slots.length 0 := by
    rw [List.eq_replicate_iff]
    refine ⟨rfl, fun slot member => ?_⟩
    exact eq_of_beq (List.all_eq_true.mp isZero slot member)
  rw [toPolynomial, row, rowPolynomial_replicate_zero]

end Denotation

section Arithmetic

theorem toPolynomial_combine [Semiring R] (sign : R) (left right : Dense R) :
    (combine sign left right).toPolynomial = left.toPolynomial + C sign * right.toPolynomial := by
  ext exponent
  rw [coeff_toPolynomial, coeff_add, coeff_C_mul, coeff_toPolynomial, coeff_toPolynomial,
    coeff_combine]
  by_cases inLeft : exponent < left.size
  · by_cases inRight : exponent < right.size
    · simp only [if_pos inLeft, if_pos inRight, zero_add]
    · have missing : right.coeff exponent = 0 := coeff_of_size_le (Nat.le_of_not_lt inRight)
      simp only [if_pos inLeft, if_neg inRight, zero_add, missing, mul_zero, add_zero]
  · have missing : left.coeff exponent = 0 := coeff_of_size_le (Nat.le_of_not_lt inLeft)
    by_cases inRight : exponent < right.size
    · simp only [if_neg inLeft, if_pos inRight, missing]
    · have absent : right.coeff exponent = 0 := coeff_of_size_le (Nat.le_of_not_lt inRight)
      simp only [if_neg inLeft, if_neg inRight, missing, absent, mul_zero, add_zero]

@[simp]
theorem toPolynomial_add [Semiring R] (left right : Dense R) :
    (left + right).toPolynomial = left.toPolynomial + right.toPolynomial := by
  have sum := toPolynomial_combine 1 left right
  rwa [map_one, one_mul] at sum

@[simp]
theorem toPolynomial_sub [Ring R] (left right : Dense R) :
    (left - right).toPolynomial = left.toPolynomial - right.toPolynomial := by
  have difference := toPolynomial_combine (-1) left right
  rwa [map_neg, map_one, neg_one_mul, ← sub_eq_add_neg] at difference

variable [Semiring R]

theorem rowPolynomial_addScaled (factor : R) (buffer row : List R)
    (fits : row.length ≤ buffer.length) :
    rowPolynomial (addScaled factor buffer row) =
      rowPolynomial buffer +
        monomial (buffer.length - row.length) factor * rowPolynomial row := by
  induction buffer generalizing row with
  | nil =>
      have empty : row = [] := List.eq_nil_of_length_eq_zero (Nat.le_zero.mp fits)
      subst empty
      simp only [addScaled, rowPolynomial, mul_zero, add_zero]
  | cons slot buffer ih =>
      cases row with
      | nil => simp only [addScaled, rowPolynomial, mul_zero, add_zero]
      | cons entry row =>
          simp only [List.length_cons, Nat.add_le_add_iff_right] at fits
          have gap : buffer.length - row.length + row.length = buffer.length :=
            Nat.sub_add_cancel fits
          simp only [addScaled, rowPolynomial, length_addScaled, ih row fits, List.length_cons,
            Nat.add_sub_add_right, mul_add, monomial_mul_monomial, gap, map_add]
          exact add_add_add_comm _ _ _ _

/-- The buffer holds the part of the product that is complete, above the part that is not. -/
theorem rowPolynomial_addProduct {buffer left right : List R}
    (size : buffer.length + 1 = left.length + right.length) :
    rowPolynomial (addProduct buffer left right) =
      rowPolynomial buffer + rowPolynomial left * rowPolynomial right := by
  induction left generalizing buffer with
  | nil => simp only [addProduct, rowPolynomial, zero_mul, add_zero]
  | cons factor left ih =>
      simp only [List.length_cons] at size
      have gap : buffer.length - right.length = left.length := by omega
      have scaled := rowPolynomial_addScaled factor buffer right (by omega)
      have length := length_addScaled factor buffer right
      rw [gap] at scaled
      unfold addProduct
      split
      · rename_i empty
        rw [empty, List.length_nil] at length
        have noBuffer : buffer = [] := List.eq_nil_of_length_eq_zero length.symm
        have noRight : right = [] := List.eq_nil_of_length_eq_zero (by omega)
        rw [noBuffer, noRight]
        simp only [rowPolynomial, mul_zero, add_zero]
      · rename_i slot rest nonempty
        rw [nonempty] at scaled length
        rw [List.length_cons] at length
        rw [rowPolynomial, length_addProduct, ih (by omega), ← add_assoc]
        rw [rowPolynomial] at scaled
        rw [scaled, rowPolynomial, add_mul, add_assoc]

@[simp]
theorem toPolynomial_mul (left right : Dense R) :
    (left * right).toPolynomial = left.toPolynomial * right.toPolynomial := by
  have size : (List.replicate (left.size + right.size - 1) (0 : R)).length + 1 =
      left.slots.length + right.slots.length := by
    rw [List.length_replicate, length_slots, length_slots, size_eq_degree_succ left]
    omega
  rw [toPolynomial, slots_mul, rowPolynomial_addProduct size, rowPolynomial_replicate_zero, zero_add]
  rfl

end Arithmetic

end LongDivision.Dense
