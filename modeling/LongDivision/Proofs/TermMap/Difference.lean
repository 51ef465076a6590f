import LongDivision.Proofs.Coefficient.Special
import LongDivision.Proofs.TermMap.Sum
import LongDivision.Proofs.TermSum.Forms

/-! The difference of the two sums of two maps. Where their common coefficient is finite it is zero,
although the dense form of the merged sum may be shorter than the dense sum.
-/

namespace LongDivision.TermMap

open LongDivision.Dense Term TermSum Binary64

section Arithmetic

variable {α : Type} [Zero α] [One α] [Add α] [Mul α] [BEq α] [NeutralUnits α]

/-- Both sums have the same coefficients, up to the sign of zeros. -/
theorem coeff_toDense_merge (left right : TermMap α) (exponent : Nat) :
    (merge left.toTermSum right.toTermSum).toDense.coeff exponent =
      if (left.toDense + right.toDense).coeff exponent == 0 then 0
      else (left.toDense + right.toDense).coeff exponent := by
  rw [TermSum.coeff_toDense, total_merge, coeff_toDense_add]
  cases lookup (totals left.toTermSum right.toTermSum) exponent with
  | none =>
      rw [Option.getD_none, if_pos NeutralUnits.zero_beq_zero]
      rfl
  | some total =>
      rw [Option.filter_some, Option.getD_some]
      cases total == 0 with
      | true => rfl
      | false => rfl

/-- A slot of the dense sum is the sum of two coefficients, whether they are there or not. -/
theorem coeff_toDense_add_eq (left right : TermMap α) (exponent : Nat) :
    (left.toDense + right.toDense).coeff exponent =
      (left.get? exponent).getD 0 + (right.get? exponent).getD 0 := by
  rw [coeff_toDense_add, lookup_totals,
    foldl_accumulate_of_distinct left.descending_toTermSum.distinct,
    foldl_accumulate_of_distinct right.descending_toTermSum.distinct, lookup_toTermSum,
    lookup_toTermSum]
  cases leftFound : left.get? exponent with
  | none =>
      cases right.get? exponent with
      | none => exact NeutralUnits.zero_add_zero.symm
      | some addend => rfl
  | some coeff =>
      have nonzero := nonzero_of_get? leftFound
      have started := NeutralUnits.zero_add nonzero
      cases right.get? exponent with
      | none => exact started.trans (NeutralUnits.add_zero nonzero).symm
      | some addend => exact congrArg (· + addend) started

end Arithmetic

/-- Taking a polynomial away from itself, where zeros may have lost their sign, leaves a zero exactly
in the finite slots. -/
theorem coeff_sub_beq_zero {same poly : Dense Float}
    (coeffs : ∀ exponent, same.coeff exponent =
      if poly.coeff exponent == 0 then 0 else poly.coeff exponent) (exponent : Nat) :
    ((same - poly).coeff exponent == 0) = (poly.coeff exponent).isFinite := by
  have started : (if exponent < same.size then 0 + same.coeff exponent else 0) =
      same.coeff exponent := by
    split
    · rw [coeffs]
      split
      · exact NeutralUnits.zero_add_zero
      · rename_i nonzero
        exact NeutralUnits.zero_add (Bool.eq_false_iff.mpr nonzero)
    · rename_i above
      exact (coeff_of_size_le (Nat.not_lt.mp above)).symm
  change ((combine (-1) same poly).coeff exponent == 0) = _
  rw [coeff_combine]
  dsimp only
  rw [started, coeffs]
  cases zero : poly.coeff exponent == 0 with
  | true =>
      rw [if_pos rfl, isFinite_of_zero zero]
      split
      · exact zero_add_neg_one_mul_beq_zero zero
      · exact NeutralUnits.zero_beq_zero
  | false =>
      have within : exponent < poly.size := by
        by_contra above
        rw [coeff_of_size_le (Nat.not_lt.mp above), NeutralUnits.zero_beq_zero] at zero
        contradiction
      rw [if_neg Bool.false_ne_true, if_pos within]
      exact add_neg_one_mul_beq_zero (poly.coeff exponent)

/-- Two maps have a power whose coefficients have an infinite sum, or one that is no number. -/
def NonfiniteSum (left right : TermMap Float) : Prop :=
  ∃ exponent, ((left.get? exponent).isSome ∨ (right.get? exponent).isSome) ∧
    (((left.get? exponent).getD 0 + (right.get? exponent).getD 0).isInf = true ∨
      ((left.get? exponent).getD 0 + (right.get? exponent).getD 0).isNaN = true)

theorem nonfiniteSum_iff (left right : TermMap Float) :
    NonfiniteSum left right ↔
      ∃ exponent, ((left.toDense + right.toDense).coeff exponent).isFinite = false := by
  simp only [NonfiniteSum, coeff_toDense_add_eq, isFinite_eq_false_iff]
  constructor
  · intro ⟨exponent, _, special⟩
    exact ⟨exponent, special⟩
  · intro ⟨exponent, special⟩
    refine ⟨exponent, ?_, special⟩
    by_contra absent
    simp only [not_or, Option.not_isSome_iff_eq_none] at absent
    rw [absent.1, absent.2] at special
    revert special
    decide

theorem isZero_sub_iff (left right : TermMap Float) :
    ((merge left.toTermSum right.toTermSum).toDense - (left.toDense + right.toDense)).isZero =
        true ↔ ¬ NonfiniteSum left right := by
  rw [isZero_iff NeutralUnits.zero_beq_zero, nonfiniteSum_iff]
  simp only [coeff_sub_beq_zero (coeff_toDense_merge left right), not_exists, Bool.not_eq_false]

end LongDivision.TermMap
