import LongDivision.Proofs.TermSum.Folds
import Mathlib.Algebra.BigOperators.Group.List.Basic

/-! Merged sums as normal forms, over coefficients with exact addition: two of them are the same list
of terms as soon as every power has the same total. The laws of a commutative monoid follow from those
of the coefficients.
-/

namespace LongDivision.TermSum

open Term

variable {M : Type} [AddCommMonoid M] {left right : TermSum M} {exponent : Nat}

theorem total_eq_sum (sum : TermSum M) (exponent : Nat) :
    sum.total exponent = (coefficients sum.terms exponent).sum := by
  rw [total_eq_foldl, List.sum_eq_foldl]

theorem foldedTotal_eq_add (left right : TermSum M) (exponent : Nat) :
    foldedTotal left right exponent = left.total exponent + right.total exponent := by
  rw [foldedTotal, ← List.sum_eq_foldl, coefficients_append, List.sum_append, total_eq_sum,
    total_eq_sum]

theorem total_empty (exponent : Nat) : (empty : TermSum M).total exponent = 0 := rfl

variable [DecidableEq M]

theorem lookup_add (left right : TermSum M) (exponent : Nat) :
    lookup (left + right).terms exponent =
      (some (left.total exponent + right.total exponent)).filter fun total => !(total == 0) := by
  rw [← foldedTotal_eq_add]
  exact lookup_merge_eq_foldedTotal (beq_self_eq_true 0) left right exponent

/-- A total that is zero is dropped, but then its power is missing and has the total zero. -/
theorem total_add (left right : TermSum M) (exponent : Nat) :
    (left + right).total exponent = left.total exponent + right.total exponent := by
  have distinct : Distinct (left + right).terms := (descending_merge left right).distinct
  rw [total_eq_sum, coefficients_of_distinct distinct, lookup_add, Option.filter_some]
  cases vanishing : left.total exponent + right.total exponent == 0 with
  | true => exact (beq_iff_eq.mp vanishing).symm
  | false => exact List.sum_singleton

/-- The totals determine a merged sum, terms and order. -/
theorem add_eq_add_iff {left right otherLeft otherRight : TermSum M} :
    left + right = otherLeft + otherRight ↔ ∀ exponent,
      left.total exponent + right.total exponent =
        otherLeft.total exponent + otherRight.total exponent := by
  constructor
  · intro same exponent
    rw [← total_add, ← total_add, same]
  · intro totals
    apply congrArg TermSum.mk
    apply (descending_merge left right).eq_of_lookup (descending_merge otherLeft otherRight)
    intro exponent
    change lookup (left + right).terms exponent = lookup (otherLeft + otherRight).terms exponent
    rw [lookup_add, lookup_add, totals]

protected theorem add_comm (left right : TermSum M) : left + right = right + left :=
  add_eq_add_iff.mpr fun _ => add_comm _ _

protected theorem add_assoc (first second third : TermSum M) :
    first + second + third = first + (second + third) := by
  refine add_eq_add_iff.mpr fun exponent => ?_
  rw [total_add, total_add, add_assoc]

theorem add_add_empty (left right : TermSum M) : left + right + empty = left + right := by
  refine add_eq_add_iff.mpr fun exponent => ?_
  rw [total_add, total_empty, add_zero]

theorem add_empty_eq_iff :
    left + empty = right + empty ↔ ∀ exponent, left.total exponent = right.total exponent := by
  rw [add_eq_add_iff]
  refine forall_congr' fun exponent => ?_
  rw [total_empty, add_zero, add_zero]

/-- Merging is commutative and associative as an equation of lists of terms, nothing is left to do for
the empty sum once a sum is merged, and merging with it alone gives two sums the same terms exactly if
each power has coefficients of the same sum in both. -/
theorem merge_laws (first second third : TermSum M) :
    first + second = second + first ∧
    first + second + third = first + (second + third) ∧
    first + second + empty = first + second ∧
    (first + empty = second + empty ↔ ∀ exponent,
      (coefficients first.terms exponent).sum = (coefficients second.terms exponent).sum) := by
  refine ⟨TermSum.add_comm first second, TermSum.add_assoc first second third,
    add_add_empty first second, ?_⟩
  simp only [add_empty_eq_iff, total_eq_sum]

end LongDivision.TermSum
