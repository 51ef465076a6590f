import LongDivision.Proofs.Expression.Limits
import LongDivision.Proofs.Session.Comparison
import LongDivision.Proofs.Session.Printed
import LongDivision.Proofs.Session.Rules

/-! What the degree limit does: expressions above it are refused, and nothing else changes. So a
session never holds a dense form that is longer than the limit allows.
-/

namespace LongDivision

open Dialogue

/-- If the event shows the operands of a division, these have no slots for powers above a limit. -/
def Event.OperandsWithin {α : Type} (limit : Nat) : Event α → Prop
  | .dividing dividend divisor => dividend.size ≤ limit + 1 ∧ divisor.size ≤ limit + 1
  | _ => True

namespace Session

theorem size_toDense_of_parse {limit : Nat} {text : List Char} {map : TermMap Float}
    (accepted : Expression.parse limit text = .ok map) : map.toDense.size ≤ limit + 1 := by
  have degree := TermMap.degree_toDense_le (Expression.exponent_of_parse accepted)
  rw [Dense.size_eq_degree_succ]
  omega

theorem operandRules (limit : Nat) :
    Rules limit (fun _ => True) (Event.OperandsWithin limit)
      (fun map : TermMap Float => map.toDense.size ≤ limit + 1) where
  parsed accepted := size_toDense_of_parse accepted
  prompt _ := trivial
  divisionText _ _ _ := trivial
  termSumText _ _ _ := trivial
  termRead _ := trivial
  operandRead _ _ := trivial
  dividing dividendWithin divisorWithin := ⟨dividendWithin, divisorWithin⟩
  divisionStep _ := trivial
  sumsMerged _ _ := trivial
  compareSums _ _ := by
    rw [compareSums]
    split <;> trivial

theorem size_of_divided {limit : Nat} {dividend divisor : Dense Float} {division : Division Float}
    (within : dividend.size ≤ limit + 1) (divided : dividend.divide divisor = .ok division) :
    division.quotient.size ≤ limit + 1 ∧ division.remainder.size ≤ limit + 1 := by
  obtain ⟨quotient, remainder⟩ := Dense.divide_degree_le (by decide) divided
  simp only [Dense.size_eq_degree_succ] at within ⊢
  omega

/-- Two answers are divided, also if the divisor is zero. -/
theorem dividing_of_answers {configuration : Configuration} {input : List UInt8}
    {dividend divisor : TermMap Float}
    (first : Answers configuration.maxDegree (firstLine input) dividend)
    (second : Answers configuration.maxDegree (firstLine (afterFirstLine input)) divisor) :
    .dividing dividend.toDense divisor.toDense ∈ ((session configuration).run input).events := by
  obtain ⟨_, firstAnswered, rest⟩ :=
    run_readOperand (α := Float) configuration.maxDegree .dividend input
  obtain ⟨_, secondAnswered, _⟩ :=
    run_readOperand (α := Float) configuration.maxDegree .divisor (afterFirstLine input)
  rw [answer_eq_ok_iff.mpr first] at firstAnswered
  rw [answer_eq_ok_iff.mpr second, ← rest] at secondAnswered
  obtain ⟨left, events⟩ := events_withAnswers configuration firstAnswered secondAnswered
  have divided : .dividing dividend.toDense divisor.toDense ∈
      ((divideOperands configuration dividend divisor).run left).events := List.mem_cons_self
  rw [session, events]
  simp [divided]

end Session

/-- The degree limit only filters. What an expression is accepted as, and what it is refused for
besides the limit, are the same under each higher limit, and a power is refused by all limits below
it. The dense forms that a session divides have no more slots than the limit allows. -/
theorem degree_limit_filters {lower higher : Nat} (raised : lower ≤ higher) (text : List Char)
    (configuration : Configuration) (input : List UInt8) :
    (∀ map : TermMap Float, Expression.parse lower text = .ok map →
      (∀ term ∈ map.terms, term.exponent ≤ lower) ∧ Expression.parse higher text = .ok map) ∧
    (∀ reason, (∀ degree bound, reason ≠ .degreeTooLarge degree bound) →
      (Expression.parse lower text : Except ExpressionError (TermMap Float)) = .error reason →
      (Expression.parse higher text : Except ExpressionError (TermMap Float)) = .error reason) ∧
    (∀ degree bound,
      (Expression.parse lower text : Except ExpressionError (TermMap Float)) =
        .error (.degreeTooLarge degree bound) →
      bound = lower ∧ lower < degree ∧ (higher < degree →
        (Expression.parse higher text : Except ExpressionError (TermMap Float)) =
          .error (.degreeTooLarge degree higher))) ∧
    ∀ dividend divisor : Dense Float,
      .dividing dividend divisor ∈ ((session configuration).run input).events →
      dividend.size ≤ configuration.maxDegree + 1 ∧ divisor.size ≤ configuration.maxDegree + 1 ∧
      ∀ division, dividend.divide divisor = .ok division →
        division.quotient.size ≤ configuration.maxDegree + 1 ∧
          division.remainder.size ≤ configuration.maxDegree + 1 := by
  refine ⟨?_, ?_, ?_, ?_⟩
  · intro map parsed
    refine ⟨fun term member => ?_, Expression.parse_raise raised parsed⟩
    exact (Expression.exponent_of_parse parsed term member).trans (min_le_left _ _)
  · intro reason notDegree parsed
    refine Expression.parse_refused_raise raised id (fun decides => ?_) parsed
    exact decides.at_every_limit notDegree higher
  · intro degree bound parsed
    obtain ⟨found, above⟩ := Expression.limit_lt_degree_of_parse parsed
    exact ⟨found, above, fun below => Expression.parse_degree_raise raised below parsed⟩
  · intro dividend divisor shown
    obtain ⟨dividendWithin, divisorWithin⟩ :=
      (Session.operandRules configuration.maxDegree).session.events input _ shown
    exact ⟨dividendWithin, divisorWithin, fun _ divided =>
      Session.size_of_divided dividendWithin divided⟩

/-- A power above the limit is refused even where it cancels. -/
theorem degree_limit_filters_of_cancelled_power :
    1 ≤ 2 ∧
    (Expression.parse 1 "x^3-x^3+x".toList : Except ExpressionError (TermMap Float)) =
      .error (.degreeTooLarge 3 1) ∧
    (Expression.parse 2 "x^3-x^3+x".toList : Except ExpressionError (TermMap Float)) =
      .error (.degreeTooLarge 3 2) ∧
    .dividing
        (TermMap.ofTerms [⟨3, (1 : Int)⟩, ⟨3, (-1 : Int)⟩, ⟨1, (1 : Int)⟩] : TermMap Float).toDense
        (TermMap.ofTerms [⟨1, (1 : Int)⟩, ⟨0, (-1 : Int)⟩] : TermMap Float).toDense ∈
      ((session { maxDegree := 3 }).run "x^3-x^3+x\nx-1\n".toUTF8.data.toList).events ∧
    (TermMap.ofTerms [⟨3, (1 : Int)⟩, ⟨3, (-1 : Int)⟩, ⟨1, (1 : Int)⟩] :
      TermMap Float).toDense.size ≤ 4 := by
  have refused : (Expression.parse 1 "x^3-x^3+x".toList : Except ExpressionError (TermMap Float)) =
      .error (.degreeTooLarge 3 1) := rfl
  have first : Answers 3 (firstLine "x^3-x^3+x\nx-1\n".toUTF8.data.toList)
      (TermMap.ofTerms [⟨3, (1 : Int)⟩, ⟨3, (-1 : Int)⟩, ⟨1, (1 : Int)⟩] : TermMap Float) :=
    ⟨by decide, "x^3-x^3+x\n", rfl, rfl⟩
  have second : Answers 3 (firstLine (afterFirstLine "x^3-x^3+x\nx-1\n".toUTF8.data.toList))
      (TermMap.ofTerms [⟨1, (1 : Int)⟩, ⟨0, (-1 : Int)⟩] : TermMap Float) :=
    ⟨by decide, "x-1\n", rfl, rfl⟩
  have divided : _ ∈ ((session (α := Float) { maxDegree := 3 }).run _).events :=
    Session.dividing_of_answers first second
  obtain ⟨_, _, degree, sizes⟩ := degree_limit_filters (by decide : 1 ≤ 2) "x^3-x^3+x".toList
    { maxDegree := 3 } "x^3-x^3+x\nx-1\n".toUTF8.data.toList
  exact ⟨by decide, refused, (degree 3 1 refused).2.2 (by decide), divided,
    (sizes _ _ divided).1⟩

end LongDivision
