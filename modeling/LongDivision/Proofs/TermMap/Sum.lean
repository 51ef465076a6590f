import LongDivision.Proofs.Coefficient.Neutral
import LongDivision.Proofs.Dense.Terms
import LongDivision.Proofs.TermMap.Forms
import LongDivision.Proofs.TermSum.Totals

/-! The two sums of two maps: term by term in one form, slot by slot in the other.
-/

namespace LongDivision.TermMap

open LongDivision.Dense Term TermSum

section Arithmetic

variable {α : Type} [Zero α] [One α] [Add α] [Mul α] [BEq α] [NeutralUnits α]

/-- Both sums add the same numbers in the same order, up to zeros that are added to zero or to a
nonzero number. -/
theorem coeff_toDense_add (left right : TermMap α) (exponent : Nat) :
    (left.toDense + right.toDense).coeff exponent =
      (lookup (totals left.toTermSum right.toTermSum) exponent).getD 0 := by
  change (combine 1 left.toDense right.toDense).coeff exponent = _
  rw [coeff_combine, lookup_totals, foldl_accumulate_of_distinct left.descending_toTermSum.distinct,
    foldl_accumulate_of_distinct right.descending_toTermSum.distinct, lookup_toTermSum,
    lookup_toTermSum, coeff_toDense, coeff_toDense]
  cases leftFound : left.get? exponent with
  | none =>
      cases rightFound : right.get? exponent with
      | none =>
          simp only [Option.getD_none, NeutralUnits.one_mul, NeutralUnits.zero_add_zero, ite_self]
      | some addend =>
          simp only [if_pos (exponent_lt_size rightFound), Option.getD_some, Option.getD_none,
            NeutralUnits.one_mul, NeutralUnits.zero_add_zero, ite_self]
  | some coeff =>
      have nonzero := nonzero_of_get? leftFound
      cases rightFound : right.get? exponent with
      | none =>
          simp only [if_pos (exponent_lt_size leftFound), Option.getD_some, Option.getD_none,
            NeutralUnits.one_mul, NeutralUnits.zero_add nonzero, NeutralUnits.add_zero nonzero,
            ite_self]
      | some addend =>
          simp only [if_pos (exponent_lt_size leftFound), if_pos (exponent_lt_size rightFound),
            Option.getD_some, Option.getD_none, NeutralUnits.one_mul]

theorem merge_toTermSum (left right : TermMap α) :
    (merge left.toTermSum right.toTermSum).terms =
      (left.toDense + right.toDense).nonzeroTerms := by
  apply (descending_merge _ _).eq_of_lookup (descending_rowTerms _)
  intro exponent
  have zero : ((0 : α) == 0) = true := NeutralUnits.zero_beq_zero
  change _ = lookup (nonzeroTerms _) exponent
  rw [lookup_merge, lookup_nonzeroTerms zero, coeff_toDense_add]
  cases lookup (totals left.toTermSum right.toTermSum) exponent with
  | none => rw [Option.getD_none, Option.filter_some, zero]; rfl
  | some total => rfl

end Arithmetic

/-- The sum of the two sums of terms has the nonzero slots of the sum of the two dense forms for
its terms, whatever floating-point numbers the maps hold. -/
theorem toTermSum_add_toTermSum (left right : TermMap Float) :
    (left.toTermSum + right.toTermSum).terms = (left.toDense + right.toDense).nonzeroTerms :=
  merge_toTermSum left right

end LongDivision.TermMap
