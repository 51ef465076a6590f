import LongDivision.Proofs.Expression.Meaning
import LongDivision.Proofs.Session.Outcome

/-! What a session prints: two texts of polynomials, which are quotient and remainder of the ones
that were typed in.
-/

namespace LongDivision

open Binary64 Polynomial

section Answers

variable {α β : Type} [Zero α] [BEq α] [Add α] [IntCast α] [Zero β] [BEq β] [Add β] [IntCast β]
variable {limit : Nat} {line : List UInt8}

/-- Whether a line is an answer does not depend on the kind of coefficients. -/
theorem Answers.exists_other {terms : TermMap α} (answers : Answers limit line terms) :
    ∃ others : TermMap β, Answers limit line others := by
  obtain ⟨nonempty, text, decoded, parsed⟩ := answers
  obtain ⟨pieces, read, tokens, _⟩ := Expression.parse_eq_ok_iff.mp parsed
  exact ⟨_, nonempty, text, decoded, Expression.parse_eq_ok_iff.mpr ⟨pieces, read, tokens, rfl⟩⟩

theorem Answers.agrees {terms : TermMap Float} {checked : TermMap Checked}
    (answers : Answers limit line terms) (checkedAnswers : Answers limit line checked)
    (kept : Term.Kept checked.terms) :
    List.Forall₂ (Term.Agrees Represents) terms.terms checked.terms := by
  obtain ⟨nonempty, text, decoded, parsed⟩ := checkedAnswers
  obtain ⟨others, accepted, agrees⟩ := TermMap.parse_agrees includesIntegers_represents parsed kept
  rwa [← answers.unique ⟨nonempty, text, decoded, accepted⟩] at agrees

theorem Answers.degree_le {terms : TermMap α} (answers : Answers limit line terms) :
    terms.toDense.degree ≤ min limit Expression.greatestExponent := by
  obtain ⟨_, text, _, parsed⟩ := answers
  exact TermMap.degree_toDense_le (Expression.exponent_of_parse parsed)

end Answers

theorem not_mem_of_unblank {text : List Char} (unblank : ∀ char ∈ text, isBlank char = false) :
    '\n' ∉ text := by
  intro member
  have := unblank '\n' member
  contradiction

/-- All coefficients that arise when the first two lines are read and divided are integers up to
`2 ^ 53`: those of the result would be lost if an earlier one were. -/
def Session.Exact (limit : Nat) (input : List UInt8) : Prop :=
  ∀ dividend divisor : TermMap Checked,
    Answers limit (firstLine input) dividend →
    Answers limit (firstLine (afterFirstLine input)) divisor →
    Term.Kept dividend.terms ∧ Term.Kept divisor.terms ∧
    ∀ division, dividend.toDense.divide divisor.toDense = .ok division →
      division.quotient.Kept ∧ division.remainder.Kept

/-- An output with the texts of a quotient and a remainder of two polynomials, each on a line of its
own. -/
def ShowsDivision (limit : Nat) (output : List Char) (dividend divisor : ℤ[X]) : Prop :=
  ∃ (quotient remainder : ℤ[X]) (quotientText remainderText sums : List Char),
    output = "Enter dividend: Enter divisor: Method 1: Dense Array\nQuotient = ".toList ++
      quotientText ++ "\nRemainder = ".toList ++ remainderText ++ '\n' :: sums ∧
    '\n' ∉ quotientText ∧ '\n' ∉ remainderText ∧
    Shows limit quotientText quotient ∧ Shows limit remainderText remainder ∧
    dividend = quotient * divisor + remainder ∧ remainder.degree < divisor.degree

/-- A session without rounding prints the quotient and the remainder of the integer polynomials
that were typed in. -/
theorem session_shows_division (configuration : Configuration) {input : List UInt8}
    {dividend divisor : TermMap Float}
    (first : Answers configuration.maxDegree (firstLine input) dividend)
    (second : Answers configuration.maxDegree (firstLine (afterFirstLine input)) divisor)
    (nonempty : divisor.isEmpty = false) (exact : Session.Exact configuration.maxDegree input) :
    ∃ dividendTyped divisorTyped : ℤ[X],
      dividend.Denotes dividendTyped ∧ divisor.Denotes divisorTyped ∧
      ((session (α := Float) configuration).run input).result = .ok () ∧
      ShowsDivision configuration.maxDegree ((session (α := Float) configuration).run input).output
        dividendTyped divisorTyped := by
  obtain ⟨dividend', firstChecked⟩ := first.exists_other (β := Checked)
  obtain ⟨divisor', secondChecked⟩ := second.exists_other (β := Checked)
  obtain ⟨dividendKept, divisorKept, divisionKept⟩ :=
    exact dividend' divisor' firstChecked secondChecked
  have dividends := first.agrees firstChecked dividendKept
  have divisors := second.agrees secondChecked divisorKept
  rw [TermMap.isEmpty_eq divisors] at nonempty
  obtain ⟨division', divided⟩ := Session.divide_toDense_of_nonempty dividend' nonempty
  obtain ⟨quotientKept, remainderKept⟩ := divisionKept division' divided
  have zeros : Agrees Represents (0 : Float) 0 := .zero includesIntegers_represents
  obtain ⟨division, accepted, quotients, remainders⟩ :=
    Dense.divide_agrees includesIntegers_represents (TermMap.toDense_agrees zeros dividends)
      (TermMap.toDense_agrees zeros divisors) (TermMap.kept_toDense dividendKept)
      (TermMap.kept_toDense divisorKept) divided quotientKept remainderKept
  obtain ⟨identity, reduced⟩ := Dense.divide_integerPolynomial (TermMap.kept_toDense dividendKept)
    (TermMap.kept_toDense divisorKept) divided quotientKept remainderKept
  obtain ⟨quotientDegree, remainderDegree⟩ := Dense.divide_degree_le (by decide) accepted
  have degree := first.degree_le
  obtain ⟨rest, output, result⟩ := Session.run_of_answers first second
  obtain ⟨sums, written, succeeded⟩ := Session.run_divideOperands_of_ok configuration accepted rest
  refine ⟨_, _, TermMap.denotes_of_agrees dividends dividendKept,
    TermMap.denotes_of_agrees divisors divisorKept, result.trans succeeded, _, _,
    division.quotient.render.toList, division.remainder.render.toList, sums, ?_,
    not_mem_of_unblank (Dense.isBlank_of_mem_render quotients quotientKept),
    not_mem_of_unblank (Dense.isBlank_of_mem_render remainders remainderKept),
    Dense.shows_render quotients quotientKept (by omega) (by omega),
    Dense.shows_render remainders remainderKept (by omega) (by omega), identity, reduced⟩
  rw [output, written]
  simp [Session.divisionText, Operand.prompt, Operand.name]

theorem session_shows_division_of_unit_lead :
    Answers 1024 (firstLine "x^2-3\nx-1\n".toUTF8.data.toList)
      (TermMap.ofTerms [⟨2, (1 : Int)⟩, ⟨0, (-3 : Int)⟩] : TermMap Float) ∧
    Answers 1024 (firstLine (afterFirstLine "x^2-3\nx-1\n".toUTF8.data.toList))
      (TermMap.ofTerms [⟨1, (1 : Int)⟩, ⟨0, (-1 : Int)⟩] : TermMap Float) ∧
    (TermMap.ofTerms [⟨1, (1 : Int)⟩, ⟨0, (-1 : Int)⟩] : TermMap Float).isEmpty = false ∧
    Session.Exact 1024 "x^2-3\nx-1\n".toUTF8.data.toList ∧
    ∃ dividendTyped divisorTyped : ℤ[X],
      (TermMap.ofTerms [⟨2, (1 : Int)⟩, ⟨0, (-3 : Int)⟩] : TermMap Float).Denotes dividendTyped ∧
      (TermMap.ofTerms [⟨1, (1 : Int)⟩, ⟨0, (-1 : Int)⟩] : TermMap Float).Denotes divisorTyped ∧
      ((session (α := Float) {}).run "x^2-3\nx-1\n".toUTF8.data.toList).result = .ok () ∧
      ShowsDivision 1024 ((session (α := Float) {}).run "x^2-3\nx-1\n".toUTF8.data.toList).output
        dividendTyped divisorTyped := by
  have first {α : Type} [Zero α] [BEq α] [Add α] [IntCast α] :
      Answers 1024 (firstLine "x^2-3\nx-1\n".toUTF8.data.toList)
        (TermMap.ofTerms [⟨2, (1 : Int)⟩, ⟨0, (-3 : Int)⟩] : TermMap α) :=
    ⟨by decide, "x^2-3\n", rfl, rfl⟩
  have second {α : Type} [Zero α] [BEq α] [Add α] [IntCast α] :
      Answers 1024 (firstLine (afterFirstLine "x^2-3\nx-1\n".toUTF8.data.toList))
        (TermMap.ofTerms [⟨1, (1 : Int)⟩, ⟨0, (-1 : Int)⟩] : TermMap α) :=
    ⟨by decide, "x-1\n", rfl, rfl⟩
  have nonempty :
      (TermMap.ofTerms [⟨1, (1 : Int)⟩, ⟨0, (-1 : Int)⟩] : TermMap Float).isEmpty = false := by
    rw [TermMap.isEmpty, TermMap.terms_ofTerms (by simp [Term.Descending]) (by decide)]
    rfl
  have exact : Session.Exact 1024 "x^2-3\nx-1\n".toUTF8.data.toList := by
    intro dividend divisor dividendAnswers divisorAnswers
    rw [dividendAnswers.unique first, divisorAnswers.unique second]
    refine ⟨by unfold Term.Kept; decide, by unfold Term.Kept; decide, ?_⟩
    intro division divided
    cases divided
    unfold Dense.Kept
    decide
  exact ⟨first, second, nonempty, exact, session_shows_division {} first second nonempty exact⟩

end LongDivision
