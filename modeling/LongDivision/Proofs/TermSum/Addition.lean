import LongDivision.Proofs.Dense.Polynomial
import LongDivision.Proofs.TermSum.Forms
import LongDivision.Proofs.TermSum.Laws
import Mathlib.Order.Bounds.Basic

/-! Dense forms of merged sums, over coefficients with exact arithmetic. A merged sum and the sum of
the two dense forms have the same coefficients but not the same size: merging drops the powers that
cancel, and with them the zero slots that would stand in front.
-/

namespace LongDivision.TermSum

open Term

section Totals

variable {M : Type} [AddCommMonoid M] {sum other left right : TermSum M} {exponent : Nat}

theorem total_perm (permuted : sum.terms.Perm other.terms) (exponent : Nat) :
    sum.total exponent = other.total exponent := by
  rw [total_eq_sum, total_eq_sum, (coefficients_perm permuted exponent).sum_eq]

theorem toDense_perm (permuted : sum.terms.Perm other.terms) : sum.toDense = other.toDense :=
  toDense_congr (degree?_perm permuted) (total_perm permuted)

/-- The powers whose coefficients in two sums do not add up to zero. -/
def remaining (left right : TermSum M) : Set Nat :=
  {exponent | (coefficients (left.terms ++ right.terms) exponent).sum ≠ 0}

theorem mem_remaining_iff : exponent ∈ remaining left right ↔ foldedTotal left right exponent ≠ 0 := by
  rw [foldedTotal, ← List.sum_eq_foldl]
  rfl

variable [DecidableEq M]

theorem exists_mem_add_iff : (∃ term ∈ (left + right).terms, term.exponent = exponent) ↔
    exponent ∈ remaining left right := by
  rw [mem_remaining_iff]
  constructor
  · rintro ⟨term, member, rfl⟩
    obtain ⟨nonzero, sum⟩ := (mem_merge_iff (beq_self_eq_true 0)).mp member
    rw [sum] at nonzero
    exact beq_eq_false_iff_ne.mp nonzero
  · intro nonzero
    exact ⟨⟨exponent, foldedTotal left right exponent⟩,
      (mem_merge_iff (beq_self_eq_true 0)).mpr ⟨beq_eq_false_iff_ne.mpr nonzero, rfl⟩, rfl⟩

theorem degree?_add_eq_none_iff : (left + right).degree? = none ↔ remaining left right = ∅ := by
  rw [degree?_eq_none_iff, List.eq_nil_iff_forall_not_mem, Set.eq_empty_iff_forall_notMem]
  constructor
  · intro empty exponent remains
    obtain ⟨term, member, _⟩ := exists_mem_add_iff.mpr remains
    exact empty term member
  · intro cancelled term member
    exact cancelled term.exponent (exists_mem_add_iff.mp ⟨term, member, rfl⟩)

theorem degree?_add_eq_some_iff {degree : Nat} : (left + right).degree? = some degree ↔
    IsGreatest (remaining left right) degree := by
  rw [degree?_eq_some_iff, exists_mem_add_iff]
  refine and_congr_right fun _ => ?_
  constructor
  · intro bounded exponent remains
    obtain ⟨term, member, rfl⟩ := exists_mem_add_iff.mpr remains
    exact bounded term member
  · intro bounded term member
    exact bounded (exists_mem_add_iff.mp ⟨term, member, rfl⟩)

/-- Zero slots in front are never needed: the leading slot is that of the highest power that remains. -/
theorem toDense_add_shape (left right : TermSum M) :
    (remaining left right = ∅ ∧ (left + right).toDense = Dense.zero) ∨
      ∃ degree, IsGreatest (remaining left right) degree ∧
        (left + right).toDense.size = degree + 1 := by
  cases leading : (left + right).degree? with
  | none => exact .inl ⟨degree?_add_eq_none_iff.mp leading, toDense_of_degree?_eq_none leading⟩
  | some degree => exact .inr ⟨degree, degree?_add_eq_some_iff.mp leading, size_toDense leading⟩

end Totals

variable {R : Type} [Semiring R] [DecidableEq R]

theorem coeff_toDense_add (left right : TermSum R) (exponent : Nat) :
    (left + right).toDense.coeff exponent = (left.toDense + right.toDense).coeff exponent := by
  rw [coeff_toDense, total_add, ← Dense.coeff_toPolynomial, Dense.toPolynomial_add,
    Polynomial.coeff_add, Dense.coeff_toPolynomial, Dense.coeff_toPolynomial, coeff_toDense,
    coeff_toDense]

/-- Merging two sums of terms, in whatever order and with whatever repetitions and zeros these are
written, and adding their dense forms give the same coefficients. The dense form of the merged sum is
led by the highest power that does not cancel, and is the shortest zero if all of them do. No dense
form depends on the order of the terms. -/
theorem toDense_add (left right : TermSum R) :
    (∀ exponent,
      (left + right).toDense.coeff exponent = (left.toDense + right.toDense).coeff exponent) ∧
    ((remaining left right = ∅ ∧ (left + right).toDense = Dense.zero) ∨
      ∃ degree, IsGreatest (remaining left right) degree ∧
        (left + right).toDense.size = degree + 1) ∧
    ∀ others, left.terms.Perm others → (⟨others⟩ : TermSum R).toDense = left.toDense :=
  ⟨coeff_toDense_add left right, toDense_add_shape left right,
    fun _ permuted => toDense_perm permuted.symm⟩

/-- The highest power has only a zero coefficient, and the next one cancels. -/
theorem toDense_add_of_cancelling_lead :
    [(⟨3, 2⟩ : Term ℤ), ⟨0, 1⟩, ⟨5, 0⟩].Perm [⟨5, 0⟩, ⟨0, 1⟩, ⟨3, 2⟩] ∧
    (⟨[⟨5, 0⟩, ⟨0, 1⟩, ⟨3, 2⟩]⟩ : TermSum ℤ).toDense = ⟨0, [0, 2, 0, 0, 1]⟩ ∧
    (⟨4, [1]⟩ : Dense ℤ).coeff 3 =
      ((⟨0, [0, 2, 0, 0, 1]⟩ : Dense ℤ) + ⟨-2, [0, 4, 0]⟩).coeff 3 := by
  have reversed : [(⟨3, 2⟩ : Term ℤ), ⟨0, 1⟩, ⟨5, 0⟩].Perm [⟨5, 0⟩, ⟨0, 1⟩, ⟨3, 2⟩] := by decide
  obtain ⟨same, _, order⟩ :=
    toDense_add (⟨[⟨3, 2⟩, ⟨0, 1⟩, ⟨5, 0⟩]⟩ : TermSum ℤ) ⟨[⟨1, 4⟩, ⟨3, -2⟩]⟩
  exact ⟨reversed, order _ reversed, same 3⟩

end LongDivision.TermSum
