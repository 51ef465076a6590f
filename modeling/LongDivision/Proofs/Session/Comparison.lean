import LongDivision.Proofs.Session.Outcome
import LongDivision.Proofs.TermMap.Difference
import LongDivision.Proofs.TermMap.Rows

/-! What a session reports about the two sums of its operands: one verdict, and a warning exactly if
some coefficient of the sum is not finite.
-/

namespace LongDivision

open Transcript Dialogue

namespace Event

variable {α : Type}

/-- A verdict on the two sums. -/
def isVerdict : Event α → Bool
  | sumsAgree => true
  | sumsDisagree _ _ => true
  | _ => false

@[simp]
theorem isVerdict_termRead (term : Expression.ReadTerm) :
    (termRead term : Event α).isVerdict = false := rfl

@[simp]
theorem isVerdict_divisionStep (step : DivisionStep α) : (divisionStep step).isVerdict = false := rfl

@[simp]
theorem isVerdict_sumsMerged (distinct kept : Nat) :
    (sumsMerged distinct kept : Event α).isVerdict = false := rfl

@[simp]
theorem isVerdict_operandRead (operand : Operand) (terms : Nat) :
    (operandRead operand terms : Event α).isVerdict = false := rfl

@[simp]
theorem isVerdict_dividing (dividend divisor : Dense α) :
    (dividing dividend divisor).isVerdict = false := rfl

end Event

namespace Session

section Answers

variable {α : Type} [Zero α] [BEq α] {answer : SessionDialogue α (TermMap α)}

theorem run_promptOperand_of_ok {input : List UInt8} {terms : TermMap α} (operand : Operand)
    (answered : (answer.run input).result = .ok terms) :
    ((promptOperand operand answer).run input).events =
        (answer.run input).events ++ [.operandRead operand terms.size] ∧
      ((promptOperand operand answer).run input).result = .ok terms ∧
      (promptOperand operand answer).remaining input = answer.remaining input := by
  simp only [promptOperand, say, log, bind, pure, andThen, run, remaining, run_andThen,
    afterWriting]
  refine ⟨events_followedBy_of_ok answered, result_followedBy_of_ok answered, ?_⟩
  rw [remaining_andThen_of_ok _ answered]
  rfl

theorem verdicts_readOperand [Add α] [IntCast α] (limit : Nat) (operand : Operand)
    (input : List UInt8) :
    ((readOperand limit operand : SessionDialogue α (TermMap α)).run input).events.filter
      Event.isVerdict = [] := by
  simp only [readOperand, ask, bind, andThen, run]
  split
  · rfl
  · split
    · rfl
    · rw [run_andThen, run_logAll]
      simp [followedBy]

end Answers

section Events

variable {α : Type} [Zero α] [One α] [Neg α] [Add α] [Mul α] [BEq α] [Written α]
variable {configuration : Configuration} {input : List UInt8} {dividend divisor : TermMap α}

theorem events_addUp (crossCheck : configuration.crossCheck = true) (input : List UInt8) :
    ((addUp configuration dividend divisor).run input).events =
      [.sumsMerged (dividend.toTermSum.distinctPowers divisor.toTermSum)
          (dividend.toTermSum.merge divisor.toTermSum).size,
        compareSums (dividend.toTermSum.merge divisor.toTermSum)
          (dividend.toDense + divisor.toDense)] := by
  simp only [addUp, crossCheck, Bool.or_true, if_true, log, bind, andThen, run]
  split
  · simp [run_sayAll, afterReporting, Event.ofMerge]
  · rfl

variable [Div α]

theorem events_divideOperands {division : Division α}
    (divided : dividend.toDense.divide divisor.toDense = .ok division) (input : List UInt8) :
    ((divideOperands configuration dividend divisor).run input).events =
      .dividing dividend.toDense divisor.toDense :: (division.steps.map Event.divisionStep ++
        ((addUp configuration dividend divisor).run input).events) := by
  simp [divideOperands, divided, log, bind, andThen, run, run_andThen, followedBy, afterReporting,
    Except.mapError, run_sayAll, remaining_sayAll]

variable {first second : SessionDialogue α (TermMap α)}

theorem events_withAnswers (configuration : Configuration)
    (firstAnswered : (first.run input).result = .ok dividend)
    (secondAnswered : (second.run (first.remaining input)).result = .ok divisor) :
    ∃ rest, ((withAnswers configuration first second).run input).events =
      (first.run input).events ++ .operandRead .dividend dividend.size ::
        ((second.run (first.remaining input)).events ++ .operandRead .divisor divisor.size ::
          ((divideOperands configuration dividend divisor).run rest).events) := by
  obtain ⟨events, result, rest⟩ := run_promptOperand_of_ok .dividend firstAnswered
  obtain ⟨nextEvents, nextResult, nextRest⟩ := run_promptOperand_of_ok .divisor secondAnswered
  refine ⟨second.remaining (first.remaining input), ?_⟩
  rw [withAnswers, run_bind, events_followedBy_of_ok result, rest, run_bind,
    events_followedBy_of_ok nextResult, nextRest, events, nextEvents, List.append_assoc,
    List.append_assoc]
  rfl

/-- With the comparison turned on, the operands are compared once, after they are divided. -/
theorem verdicts_withAnswers (crossCheck : configuration.crossCheck = true)
    (nonempty : divisor.isEmpty = false) (firstAnswered : (first.run input).result = .ok dividend)
    (secondAnswered : (second.run (first.remaining input)).result = .ok divisor)
    (firstSilent : (first.run input).events.filter Event.isVerdict = [])
    (secondSilent :
      (second.run (first.remaining input)).events.filter Event.isVerdict = []) :
    ((withAnswers configuration first second).run input).events.filter Event.isVerdict =
      [compareSums (dividend.toTermSum.merge divisor.toTermSum)
        (dividend.toDense + divisor.toDense)] := by
  obtain ⟨rest, events⟩ := events_withAnswers configuration firstAnswered secondAnswered
  obtain ⟨division, divided⟩ := divide_toDense_of_nonempty dividend nonempty
  have steps : (division.steps.map Event.divisionStep).filter Event.isVerdict = [] := by simp
  have verdict : (compareSums (dividend.toTermSum.merge divisor.toTermSum)
      (dividend.toDense + divisor.toDense)).isVerdict = true := by
    rw [compareSums]
    split <;> rfl
  rw [events, events_divideOperands divided, events_addUp crossCheck]
  simp [firstSilent, secondSilent, steps, verdict]

end Events

/-- The events of a session hold one verdict on its operands: a warning that shows both sums, if
some power has coefficients whose sum is not finite, and their agreement otherwise. -/
def HasVerdict (events : List (Event Float)) (dividend divisor : TermMap Float) : Prop :=
  ∃ verdict, events.filter Event.isVerdict = [verdict] ∧
    (verdict = .sumsDisagree (dividend.toTermSum + divisor.toTermSum).toDense
      (dividend.toDense + divisor.toDense) ↔ TermMap.NonfiniteSum dividend divisor) ∧
    (verdict = .sumsAgree ↔ ¬ TermMap.NonfiniteSum dividend divisor)

theorem hasVerdict_compareSums {events : List (Event Float)} {dividend divisor : TermMap Float}
    (verdict : events.filter Event.isVerdict =
      [compareSums (dividend.toTermSum.merge divisor.toTermSum)
        (dividend.toDense + divisor.toDense)]) :
    HasVerdict events dividend divisor := by
  have agree := TermMap.isZero_sub_iff dividend divisor
  refine ⟨_, verdict, ?_⟩
  rw [compareSums]
  split
  · rename_i zero
    have finite := agree.mp zero
    simp [finite]
  · rename_i nonzero
    have nonfinite := not_not.mp (mt agree.mpr nonzero)
    simp only [nonfinite, not_true_eq_false, reduceCtorEq, iff_true, and_true]
    rfl

end Session

/-- With the comparison turned on, a session warns exactly if some power of the operands has
coefficients whose sum is not finite, whatever floating-point numbers they are. That holds for
operands that are given as well as for those that are read from the input. -/
theorem session_verdict {configuration : Configuration} (crossCheck : configuration.crossCheck = true)
    {dividend divisor : TermMap Float} (nonempty : divisor.isEmpty = false) (input : List UInt8) :
    Session.HasVerdict ((Session.withAnswers configuration (.done dividend) (.done divisor)).run
      input).events dividend divisor ∧
    (Answers configuration.maxDegree (firstLine input) dividend →
      Answers configuration.maxDegree (firstLine (afterFirstLine input)) divisor →
      Session.HasVerdict ((session configuration).run input).events dividend divisor) := by
  constructor
  · exact Session.hasVerdict_compareSums
      (Session.verdicts_withAnswers crossCheck nonempty rfl rfl rfl rfl)
  · intro first second
    obtain ⟨_, firstAnswered, rest⟩ :=
      Session.run_readOperand (α := Float) configuration.maxDegree .dividend input
    obtain ⟨_, secondAnswered, _⟩ :=
      Session.run_readOperand (α := Float) configuration.maxDegree .divisor (afterFirstLine input)
    rw [Session.answer_eq_ok_iff.mpr first] at firstAnswered
    rw [Session.answer_eq_ok_iff.mpr second, ← rest] at secondAnswered
    exact Session.hasVerdict_compareSums
      (Session.verdicts_withAnswers crossCheck nonempty firstAnswered secondAnswered
        (Session.verdicts_readOperand _ _ _) (Session.verdicts_readOperand _ _ _))

/-- The highest powers cancel, so that the dense form of the one sum is shorter than the other. -/
theorem session_verdict_of_cancelled_lead :
    ({} : Configuration).crossCheck = true ∧
    (TermMap.ofTerms [⟨3, (-1 : Int)⟩, ⟨0, (1 : Int)⟩] : TermMap Float).isEmpty = false ∧
    Answers 1024 (firstLine "x^3+x\n-x^3+1\n".toUTF8.data.toList)
      (TermMap.ofTerms [⟨3, (1 : Int)⟩, ⟨1, (1 : Int)⟩] : TermMap Float) ∧
    Answers 1024 (firstLine (afterFirstLine "x^3+x\n-x^3+1\n".toUTF8.data.toList))
      (TermMap.ofTerms [⟨3, (-1 : Int)⟩, ⟨0, (1 : Int)⟩] : TermMap Float) ∧
    Session.HasVerdict
      ((session (α := Float) {}).run "x^3+x\n-x^3+1\n".toUTF8.data.toList).events
      (TermMap.ofTerms [⟨3, (1 : Int)⟩, ⟨1, (1 : Int)⟩])
      (TermMap.ofTerms [⟨3, (-1 : Int)⟩, ⟨0, (1 : Int)⟩]) := by
  have first : Answers 1024 (firstLine "x^3+x\n-x^3+1\n".toUTF8.data.toList)
      (TermMap.ofTerms [⟨3, (1 : Int)⟩, ⟨1, (1 : Int)⟩] : TermMap Float) :=
    ⟨by decide, "x^3+x\n", rfl, rfl⟩
  have second : Answers 1024 (firstLine (afterFirstLine "x^3+x\n-x^3+1\n".toUTF8.data.toList))
      (TermMap.ofTerms [⟨3, (-1 : Int)⟩, ⟨0, (1 : Int)⟩] : TermMap Float) :=
    ⟨by decide, "-x^3+1\n", rfl, rfl⟩
  have nonempty :
      (TermMap.ofTerms [⟨3, (-1 : Int)⟩, ⟨0, (1 : Int)⟩] : TermMap Float).isEmpty = false := by
    rw [TermMap.isEmpty, TermMap.terms_ofTerms (by simp [Term.Descending]) (by decide)]
    rfl
  exact ⟨rfl, nonempty, first, second, (session_verdict rfl nonempty _).2 first second⟩

end LongDivision
