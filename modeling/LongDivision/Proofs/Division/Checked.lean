import LongDivision.Proofs.Coefficient.Checked
import LongDivision.Proofs.Dense.Related
import LongDivision.Proofs.Division.Run

/-! Division with checked integers. What is lost stays lost up to the quotient or the remainder, so
that without a loss in these there was none on the way, and other coefficients take the same course.
-/

namespace LongDivision

open LongDivision.Dense Division

namespace Dense

/-- No coefficient is lost. -/
def Kept (poly : Dense Checked) : Prop :=
  ∀ slot ∈ poly.slots, slot ≠ .lost

theorem kept_iff {poly : Dense Checked} :
    poly.Kept ↔ ∀ exponent, poly.coeff exponent ≠ .lost := by
  constructor
  · intro kept exponent
    by_cases within : exponent ≤ poly.degree
    · rw [coeff, dif_pos within]
      exact kept _ (List.getElem_mem _)
    · rw [coeff, dif_neg within]
      exact Checked.zero_ne_lost
  · intro kept slot member
    obtain ⟨exponent, same⟩ := exists_rowCoeff_eq member
    rw [← same, ← coeff_eq_rowCoeff]
    exact kept exponent

section Backward

variable {left right divisor quotient remainder : Dense Checked} {sign : Checked} {exponent : Nat}

theorem ne_lost_of_combine (kept : (combine sign left right).coeff exponent ≠ .lost) :
    left.coeff exponent ≠ .lost ∧ right.coeff exponent ≠ .lost := by
  rw [coeff_combine] at kept
  by_cases inRight : exponent < right.size
  · simp only [if_pos inRight] at kept
    obtain ⟨started, scaled⟩ := Checked.ne_lost_of_add kept
    refine ⟨?_, (Checked.ne_lost_of_mul scaled).2⟩
    by_cases inLeft : exponent < left.size
    · rw [if_pos inLeft] at started
      exact (Checked.ne_lost_of_add started).2
    · rw [coeff_of_size_le (Nat.le_of_not_lt inLeft)]
      exact Checked.zero_ne_lost
  · rw [coeff_of_size_le (Nat.le_of_not_lt inRight)]
    refine ⟨?_, Checked.zero_ne_lost⟩
    by_cases inLeft : exponent < left.size
    · simp only [if_neg inRight, if_pos inLeft] at kept
      exact (Checked.ne_lost_of_add kept).2
    · rw [coeff_of_size_le (Nat.le_of_not_lt inLeft)]
      exact Checked.zero_ne_lost

theorem kept_of_add (kept : (left + right).Kept) : left.Kept ∧ right.Kept :=
  ⟨kept_iff.mpr fun exponent => (ne_lost_of_combine (kept_iff.mp kept exponent)).1,
    kept_iff.mpr fun exponent => (ne_lost_of_combine (kept_iff.mp kept exponent)).2⟩

/-- A step drops the leading slot, but it has divided that slot for the term that it adds. -/
theorem kept_of_step (reaches : divisor.degree ≤ remainder.degree)
    (term : (nextTerm divisor remainder).Kept)
    (reduced : (nextRemainder divisor remainder (nextTerm divisor remainder)).Kept) :
    remainder.Kept := by
  rw [kept_iff] at term reduced ⊢
  intro exponent
  rcases Nat.lt_trichotomy exponent remainder.degree with below | rfl | above
  · have kept := reduced exponent
    rw [nextRemainder, coeff_dropLead (by rwa [degree_sub_nextTerm_mul reaches])] at kept
    exact (ne_lost_of_combine kept).1
  · have kept := term (nextTerm divisor remainder).degree
    rw [coeff_degree] at kept ⊢
    exact (Checked.ne_lost_of_div kept).1
  · rw [coeff_of_size_le above]
    exact Checked.zero_ne_lost

theorem kept_of_reduce {count : Nat}
    (quotients : (reduce divisor count quotient remainder).quotient.Kept)
    (remainders : (reduce divisor count quotient remainder).remainder.Kept) :
    quotient.Kept ∧ remainder.Kept := by
  induction count generalizing quotient remainder with
  | zero => exact ⟨quotients, remainders⟩
  | succ count ih =>
      cases state : ended divisor remainder with
      | true =>
          simp only [reduce, state, if_true] at quotients remainders
          exact ⟨quotients, remainders⟩
      | false =>
          simp only [reduce, state, Bool.false_eq_true, if_false] at quotients remainders
          obtain ⟨sum, reduced⟩ := ih quotients remainders
          obtain ⟨earlier, term⟩ := kept_of_add sum
          exact ⟨earlier, kept_of_step (ended_eq_false_iff.mp state).2 term reduced⟩

end Backward

section Forward

variable {β : Type} [Zero β] [One β] [Neg β] [Add β] [Mul β] [Div β] [BEq β] [IntCast β]
variable {is : β → Int → Prop} (includes : IncludesIntegers is)
include includes

theorem respected_agrees : Respected (Agrees is) where
  zero := .zero includes
  one := .one includes
  neg_one := .neg_one includes
  add := .add includes
  mul := .mul includes
  div := .div includes

variable {divisor quotient remainder dividend : Dense β}
variable {divisor' quotient' remainder' dividend' : Dense Checked}

theorem isZero_eq (agrees : Related (Agrees is) remainder remainder') (kept : remainder'.Kept) :
    remainder.isZero = remainder'.isZero := by
  have rows {row : List β} {row' : List Checked} (agree : List.Forall₂ (Agrees is) row row')
      (slots : ∀ slot ∈ row', slot ≠ .lost) : row.all (· == 0) = row'.all (· == 0) := by
    induction agree with
    | nil => rfl
    | cons first rest ih =>
        rw [List.all_cons, List.all_cons, first.beq_zero includes (slots _ List.mem_cons_self),
          ih fun slot later => slots slot (List.mem_cons_of_mem _ later)]
  exact rows agrees kept

theorem ended_eq (divisors : Related (Agrees is) divisor divisor')
    (remainders : Related (Agrees is) remainder remainder') (kept : remainder'.Kept) :
    ended divisor remainder = ended divisor' remainder' := by
  rw [ended, ended, isZero_eq includes remainders kept, divisors.degree_eq, remainders.degree_eq]

theorem related_reduce {count : Nat} (divisors : Related (Agrees is) divisor divisor')
    (quotients : Related (Agrees is) quotient quotient')
    (remainders : Related (Agrees is) remainder remainder')
    (quotientKept : (reduce divisor' count quotient' remainder').quotient.Kept)
    (remainderKept : (reduce divisor' count quotient' remainder').remainder.Kept) :
    Related (Agrees is) (reduce divisor count quotient remainder).quotient
        (reduce divisor' count quotient' remainder').quotient ∧
      Related (Agrees is) (reduce divisor count quotient remainder).remainder
        (reduce divisor' count quotient' remainder').remainder := by
  induction count generalizing quotient quotient' remainder remainder' with
  | zero => exact ⟨quotients, remainders⟩
  | succ count ih =>
      have same := ended_eq includes divisors remainders
        (kept_of_reduce quotientKept remainderKept).2
      cases state : ended divisor' remainder' with
      | true =>
          rw [state] at same
          simp only [reduce, state, same, if_true]
          exact ⟨quotients, remainders⟩
      | false =>
          rw [state] at same
          simp only [reduce, state, same, Bool.false_eq_true, if_false] at *
          have terms := related_nextTerm (respected_agrees includes) divisors remainders
          exact ih (related_add (respected_agrees includes) quotients terms)
            (related_nextRemainder (respected_agrees includes) divisors remainders terms)
            quotientKept remainderKept

/-- Without a loss, division takes the same course with all coefficients. -/
theorem divide_agrees {division' : Division Checked}
    (dividends : Related (Agrees is) dividend dividend')
    (divisors : Related (Agrees is) divisor divisor') (dividendKept : dividend'.Kept)
    (divisorKept : divisor'.Kept) (divided : dividend'.divide divisor' = .ok division')
    (quotientKept : division'.quotient.Kept) (remainderKept : division'.remainder.Kept) :
    ∃ division, dividend.divide divisor = .ok division ∧
      Related (Agrees is) division.quotient division'.quotient ∧
      Related (Agrees is) division.remainder division'.remainder := by
  have zero : Related (Agrees is) Dense.zero Dense.zero := related_zero (.zero includes)
  have lead : (divisor.lead == 0) = (divisor'.lead == 0) :=
    divisors.lead.beq_zero includes (divisorKept _ List.mem_cons_self)
  simp only [divide, isZero_eq includes divisors divisorKept, lead,
    isZero_eq includes dividends dividendKept, dividends.degree_eq, divisors.degree_eq] at divided ⊢
  by_cases zeroDivisor : divisor'.isZero = true
  · rw [if_pos zeroDivisor] at divided
    contradiction
  · by_cases zeroLead : (divisor'.lead == 0) = true
    · rw [if_neg zeroDivisor, if_pos zeroLead] at divided
      contradiction
    · rw [if_neg zeroDivisor, if_neg zeroLead] at divided ⊢
      by_cases zeroDividend : dividend'.isZero = true
      · rw [if_pos zeroDividend] at divided ⊢
        cases divided
        exact ⟨_, rfl, zero, zero⟩
      · rw [if_neg zeroDividend] at divided ⊢
        by_cases short : dividend'.degree < divisor'.degree
        · rw [if_pos short] at divided ⊢
          cases divided
          exact ⟨_, rfl, zero, dividends⟩
        · rw [if_neg short] at divided ⊢
          cases divided
          exact ⟨_, rfl, related_reduce includes divisors zero dividends quotientKept
            remainderKept⟩

end Forward

end Dense

end LongDivision
