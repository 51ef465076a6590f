import LongDivision.Coefficient.Binary64
import LongDivision.Proofs.Dense.Evaluation
import LongDivision.Proofs.Dense.Text
import LongDivision.Proofs.Division.Identity

/-! Zero slots in front of a polynomial. They count in its degree and so decide which way a division
goes, but what comes out of any operation is the same polynomial.
-/

namespace LongDivision

open Polynomial

namespace Dense

section Texts

variable {α : Type} [Zero α] {zeros : List α}

def padded (zeros : List α) (poly : Dense α) : Dense α :=
  ofSlots (zeros ++ poly.slots)

theorem slots_padded (zeros : List α) (poly : Dense α) :
    (poly.padded zeros).slots = zeros ++ poly.slots :=
  slots_ofSlots (List.append_ne_nil_of_right_ne_nil _ (List.cons_ne_nil _ _))

variable [BEq α] (allZero : ∀ slot ∈ zeros, (slot == 0) = true)
include allZero

theorem isZero_padded (poly : Dense α) : (poly.padded zeros).isZero = poly.isZero := by
  rw [isZero, slots_padded, List.all_append, List.all_eq_true.mpr allZero, Bool.true_and, isZero]

variable [Written α]

theorem text_padded (poly : Dense α) : (poly.padded zeros).text = poly.text := by
  apply text_congr
  rw [nonzeroTerms, slots_padded, rowTerms_append_of_zeros allZero, nonzeroTerms]

theorem render_padded (poly : Dense α) : (poly.padded zeros).render = poly.render := by
  rw [render, isZero_padded allZero, text_padded allZero, render]

end Texts

/-- Polynomials of any sizes with the same coefficient at every power. -/
def SameCoeffs {α : Type} [Zero α] (left right : Dense α) : Prop :=
  ∀ exponent, left.coeff exponent = right.coeff exponent

section Exact

variable {R : Type} [Semiring R] {zeros : List R}

theorem toPolynomial_padded (allZero : ∀ slot ∈ zeros, slot = 0) (poly : Dense R) :
    (poly.padded zeros).toPolynomial = poly.toPolynomial := by
  rw [toPolynomial, slots_padded, toPolynomial]
  induction zeros with
  | nil => rfl
  | cons slot zeros ih =>
      obtain ⟨zero, rest⟩ := List.forall_mem_cons.mp allZero
      rw [List.cons_append, rowPolynomial, zero, map_zero, zero_add, ih rest]

end Exact

end Dense

namespace Division

open LongDivision.Dense

/-- Two divisions that are refused for one reason, or that come to the same quotient and remainder. -/
inductive SameOutcome {α : Type} [Zero α] :
    Except DivisionError (Division α) → Except DivisionError (Division α) → Prop where
  | refused (reason : DivisionError) : SameOutcome (.error reason) (.error reason)
  | divided {left right : Division α} (quotients : SameCoeffs left.quotient right.quotient)
      (remainders : SameCoeffs left.remainder right.remainder) :
      SameOutcome (.ok left) (.ok right)

end Division

namespace Dense

open Division

/-- A divisor is refused whatever is to be divided. -/
theorem refused_or_lead {α : Type} [Zero α] [One α] [Neg α] [Add α] [Mul α] [Div α] [BEq α]
    (divisor : Dense α) :
    (∃ reason, ∀ dividend : Dense α, dividend.divide divisor = .error reason) ∨
      (divisor.lead == 0) = false := by
  by_cases zero : divisor.isZero = true
  · exact .inl ⟨.zeroDivisor, fun _ => by rw [divide, if_pos zero]⟩
  · cases lead : divisor.lead == 0 with
    | true => exact .inl ⟨.zeroLead divisor.degree, fun _ => by rw [divide, if_neg zero, if_pos lead]⟩
    | false => exact .inr rfl

variable {K : Type} [Field K] [DecidableEq K]

/-- A division depends on the polynomial that is divided and not on how many slots it has. -/
theorem sameOutcome_divide {left right : Dense K} (same : left.toPolynomial = right.toPolynomial)
    (divisor : Dense K) : SameOutcome (left.divide divisor) (right.divide divisor) := by
  rcases refused_or_lead divisor with ⟨reason, refused⟩ | lead
  · rw [refused left, refused right]
    exact .refused reason
  · have nonzero := beq_eq_false_iff_ne.mp lead
    obtain ⟨division, accepted, reduced, identity⟩ := divide_toPolynomial left nonzero
    obtain ⟨other, otherAccepted, otherReduced, otherIdentity⟩ := divide_toPolynomial right nonzero
    rw [same, ← otherIdentity] at identity
    have equal := Division.unique identity (reduced.degree_lt nonzero)
      (otherReduced.degree_lt nonzero)
    rw [accepted, otherAccepted]
    exact .divided (toPolynomial_eq_iff.mp equal.1) (toPolynomial_eq_iff.mp equal.2)

/-- With zero slots in front, a polynomial is written as before, and over a field everything that is
computed from it is the same at every power and every point: sums, differences, products and
multiples, values, quotients and remainders. -/
theorem padding_unobservable {α : Type} [Zero α] [BEq α] [Written α] {blanks : List α}
    (allBlank : ∀ slot ∈ blanks, (slot == 0) = true) (written : Dense α) {zeros : List K}
    (allZero : ∀ slot ∈ zeros, slot = 0) (poly other divisor : Dense K) (factor point : K) :
    (written.padded blanks).text = written.text ∧
    (written.padded blanks).render = written.render ∧
    SameCoeffs (poly.padded zeros + other) (poly + other) ∧
    SameCoeffs (other + poly.padded zeros) (other + poly) ∧
    SameCoeffs (poly.padded zeros - other) (poly - other) ∧
    SameCoeffs (other - poly.padded zeros) (other - poly) ∧
    SameCoeffs (poly.padded zeros * other) (poly * other) ∧
    SameCoeffs (other * poly.padded zeros) (other * poly) ∧
    SameCoeffs ((poly.padded zeros).scale factor) (poly.scale factor) ∧
    (poly.padded zeros).eval point = poly.eval point ∧
    SameOutcome ((poly.padded zeros).divide divisor) (poly.divide divisor) := by
  have same := toPolynomial_padded allZero poly
  refine ⟨text_padded allBlank written, render_padded allBlank written, ?_, ?_, ?_, ?_, ?_, ?_, ?_,
    ?_, sameOutcome_divide same divisor⟩
  · rw [SameCoeffs, ← toPolynomial_eq_iff, toPolynomial_add, same, toPolynomial_add]
  · rw [SameCoeffs, ← toPolynomial_eq_iff, toPolynomial_add, same, toPolynomial_add]
  · rw [SameCoeffs, ← toPolynomial_eq_iff, toPolynomial_sub, same, toPolynomial_sub]
  · rw [SameCoeffs, ← toPolynomial_eq_iff, toPolynomial_sub, same, toPolynomial_sub]
  · rw [SameCoeffs, ← toPolynomial_eq_iff, toPolynomial_mul, same, toPolynomial_mul]
  · rw [SameCoeffs, ← toPolynomial_eq_iff, toPolynomial_mul, same, toPolynomial_mul]
  · rw [SameCoeffs, ← toPolynomial_eq_iff, toPolynomial_scale, same, toPolynomial_scale]
  · rw [← eval_toPolynomial, same, eval_toPolynomial]

/-- Without the zeros in front the dividend is itself the remainder; with them it goes through the
loop. -/
theorem padding_unobservable_of_short_dividend :
    (∀ slot ∈ [(-0 : Float), 0], (slot == 0) = true) ∧ (∀ slot ∈ [(0 : ℚ), 0], slot = 0) ∧
    ((⟨0.5, [-2]⟩ : Dense Float).padded [-0, 0]).render = (⟨0.5, [-2]⟩ : Dense Float).render ∧
    SameOutcome (((⟨3, [5]⟩ : Dense ℚ).padded [0, 0]).divide ⟨1, [0, 1]⟩)
      ((⟨3, [5]⟩ : Dense ℚ).divide ⟨1, [0, 1]⟩) := by
  have allBlank : ∀ slot ∈ [(-0 : Float), 0], (slot == 0) = true := by decide
  have allZero : ∀ slot ∈ [(0 : ℚ), 0], slot = 0 := by decide
  obtain ⟨_, render, _, _, _, _, _, _, _, _, outcome⟩ :=
    padding_unobservable allBlank ⟨0.5, [-2]⟩ allZero ⟨3, [5]⟩ ⟨1, []⟩ ⟨1, [0, 1]⟩ 2 7
  exact ⟨allBlank, allZero, render, outcome⟩

end Dense

end LongDivision
