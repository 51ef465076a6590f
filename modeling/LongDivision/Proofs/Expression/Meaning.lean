import LongDivision.Proofs.Division.Integers
import LongDivision.Proofs.Expression.RoundTrip
import LongDivision.Proofs.TermMap.Checked

/-! The integer polynomials that expressions denote, and that the texts of polynomials show.
-/

namespace LongDivision

open Binary64 Polynomial

/-- A map of floating-point coefficients that are those of an integer polynomial. -/
def TermMap.Denotes (map : TermMap Float) (polynomial : ℤ[X]) : Prop :=
  ∀ exponent, (polynomial.coeff exponent).natAbs ≤ 2 ^ 53 ∧
    (map.get? exponent).getD 0 = polynomial.coeff exponent

/-- A text of a polynomial: a digit for zero, an expression that denotes it for any other. -/
def Shows (limit : Nat) (text : List Char) (polynomial : ℤ[X]) : Prop :=
  (text = ['0'] ∧ polynomial = 0) ∨
    ∃ map : TermMap Float, Expression.parse limit text = .ok map ∧ map.Denotes polynomial

theorem Expression.exponent_of_parse {α : Type} [Zero α] [BEq α] [Add α] [IntCast α] {limit : Nat}
    {text : List Char} {map : TermMap α} (accepted : parse limit text = .ok map) :
    ∀ term ∈ map.terms, term.exponent ≤ min limit greatestExponent := by
  obtain ⟨_, terms, tokens, rfl⟩ := parse_eq_ok_iff.mp accepted
  apply TermMap.exponent_foldl_insert
  · intro term member
    obtain ⟨read, inside, rfl⟩ := List.mem_map.mp member
    obtain ⟨token, accepts⟩ := exists_accepts tokens inside
    exact le_min accepts.within accepts.form.fits
  · simp [TermMap.empty]

namespace Dense

variable {poly : Dense Float} {checked : Dense Checked}

theorem represents_coeff (agrees : Related (Agrees Represents) poly checked)
    (kept : checked.Kept) (exponent : Nat) :
    Represents (poly.coeff exponent) (checked.integerPolynomial.coeff exponent) := by
  rw [coeff_integerPolynomial]
  exact agrees.coeff (.zero includesIntegers_represents) exponent _
    (Checked.eq_exact_of_ne_lost (kept_iff.mp kept exponent))

theorem represents_nonzeroTerms (agrees : Related (Agrees Represents) poly checked)
    (kept : checked.Kept) : ∀ term ∈ poly.nonzeroTerms, ∃ integer, Represents term.coeff integer := by
  intro term member
  obtain ⟨exponent, same⟩ := exists_rowCoeff_eq (mem_slots_of_rowTerms member).1
  rw [← same, ← coeff_eq_rowCoeff]
  exact ⟨_, represents_coeff agrees kept exponent⟩

/-- A map with the nonzero slots of a polynomial for its terms denotes what its slots are. -/
theorem denotes_of_nonzeroTerms (agrees : Related (Agrees Represents) poly checked)
    (kept : checked.Kept) {map : TermMap Float} (terms : map.terms = poly.nonzeroTerms.reverse) :
    map.Denotes checked.integerPolynomial := by
  intro exponent
  have represents := represents_coeff agrees kept exponent
  refine ⟨represents.exact, ?_⟩
  have found : map.get? exponent =
      (some (poly.coeff exponent)).filter fun slot => !(slot == 0) := by
    rw [← lookup_nonzeroTerms (by decide)]
    change Term.lookup map.terms exponent = _
    have distinct : Term.Distinct poly.nonzeroTerms := (descending_rowTerms poly.slots).distinct
    rw [terms, ← distinct.lookup_perm (List.reverse_perm _).symm]
  rw [found, Option.filter_some]
  cases zero : poly.coeff exponent == 0 with
  | true =>
      rw [represents.beq_zero, decide_eq_true_eq] at zero
      rw [zero]
      rfl
  | false => exact represents.eq_intCast zero

theorem integerPolynomial_of_isZero (agrees : Related (Agrees Represents) poly checked)
    (kept : checked.Kept) (isZero : poly.isZero = true) : checked.integerPolynomial = 0 := by
  ext exponent
  have absent := lookup_nonzeroTerms (by decide) poly exponent
  rw [nonzeroTerms_of_isZero isZero, Option.filter_some] at absent
  have zero : (poly.coeff exponent == 0) = true := by
    cases state : poly.coeff exponent == 0 with
    | true => rfl
    | false =>
        rw [state] at absent
        contradiction
  rw [(represents_coeff agrees kept exponent).beq_zero, decide_eq_true_eq] at zero
  exact zero

theorem shows_render (agrees : Related (Agrees Represents) poly checked) (kept : checked.Kept)
    {limit : Nat} (within : poly.degree ≤ limit) (fits : poly.degree ≤ Expression.greatestExponent) :
    Shows limit poly.render.toList checked.integerPolynomial := by
  rw [render]
  cases isZero : poly.isZero with
  | true => exact .inl ⟨by simp, integerPolynomial_of_isZero agrees kept isZero⟩
  | false =>
      have bounded : ∀ term ∈ poly.nonzeroTerms,
          term.exponent ≤ limit ∧ term.exponent ≤ Expression.greatestExponent := by
        intro term member
        have below := exponent_rowTerms member
        rw [length_slots, size_eq_degree_succ] at below
        omega
      obtain ⟨map, accepted, terms⟩ := Expression.parse_text (nonzeroTerms_ne_nil isZero)
        (represents_nonzeroTerms agrees kept) bounded
      exact .inr ⟨map, accepted, denotes_of_nonzeroTerms agrees kept terms⟩

theorem isBlank_of_mem_render (agrees : Related (Agrees Represents) poly checked)
    (kept : checked.Kept) : ∀ char ∈ poly.render.toList, isBlank char = false := by
  rw [render]
  cases isZero : poly.isZero with
  | true => simp [isBlank, blankRanges]
  | false =>
      exact Expression.isBlank_of_mem_text (nonzeroTerms_ne_nil isZero)
        (represents_nonzeroTerms agrees kept)

end Dense

namespace TermMap

variable {map : TermMap Float} {map' : TermMap Checked}

theorem denotes_of_agrees (allAgree : List.Forall₂ (Term.Agrees Represents) map.terms map'.terms)
    (kept : Term.Kept map'.terms) : map.Denotes map'.toDense.integerPolynomial := by
  apply Dense.denotes_of_nonzeroTerms (toDense_agrees (.zero includesIntegers_represents) allAgree)
    (kept_toDense kept)
  rw [nonzeroTerms_toDense (by decide), List.reverse_reverse]

end TermMap

end LongDivision
