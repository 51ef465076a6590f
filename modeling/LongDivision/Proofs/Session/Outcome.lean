import LongDivision.Program
import LongDivision.Proofs.Dialogue.Run
import LongDivision.Proofs.Division.Run
import LongDivision.Proofs.TermMap.Forms

/-! How a session ends: which inputs it accepts, which of its failures occur, and what is written
before each of them.
-/

namespace LongDivision

open Transcript Dialogue

/-- A line that answers a prompt with a polynomial. -/
def Answers {α : Type} [Zero α] [BEq α] [Add α] [IntCast α] (limit : Nat) (line : List UInt8)
    (terms : TermMap α) : Prop :=
  line ≠ [] ∧ ∃ text, String.fromUTF8? line.toByteArray = some text ∧
    Expression.parse limit text.toList = .ok terms

theorem Answers.unique {α : Type} [Zero α] [BEq α] [Add α] [IntCast α] {limit : Nat}
    {line : List UInt8} {left right : TermMap α} (leftAnswers : Answers limit line left)
    (rightAnswers : Answers limit line right) : left = right := by
  obtain ⟨_, text, decoded, leftParsed⟩ := leftAnswers
  obtain ⟨_, other, otherDecoded, rightParsed⟩ := rightAnswers
  rw [decoded] at otherDecoded
  cases otherDecoded
  rw [leftParsed] at rightParsed
  cases rightParsed
  rfl

namespace Session

/-- What can be wrong with the line that answers a prompt. -/
inductive LineFault (operand : Operand) : SessionError → Prop where
  | missing : LineFault operand (.missing operand)
  | notText : LineFault operand .notText
  | expression (error : ExpressionError) : LineFault operand (.expression error)

theorem LineFault.ne_zeroDivisor {operand : Operand} {reason : SessionError}
    (fault : LineFault operand reason) : reason ≠ .zeroDivisor := by
  cases fault <;> simp

theorem LineFault.ne_division {operand : Operand} {reason : SessionError}
    (fault : LineFault operand reason) {β : Type} (error : DivisionError) :
    (.error reason : Except SessionError β) ≠ .error (.division error) := by
  cases fault <;> simp

section Answer

variable {α : Type} [Zero α] [Add α] [BEq α] [IntCast α]
variable {limit : Nat} {operand : Operand} {line : List UInt8} {terms : TermMap α}

/-- What a line is worth as an answer. -/
def answer (limit : Nat) (operand : Operand) (line : List UInt8) :
    Except SessionError (TermMap α) :=
  if line.isEmpty then .error (.missing operand)
  else
    match String.fromUTF8? line.toByteArray with
    | none => .error .notText
    | some text => (Expression.parse limit text.toList).mapError .expression

theorem answer_eq_ok_iff : answer limit operand line = .ok terms ↔ Answers limit line terms := by
  unfold answer
  cases line with
  | nil => simp [Answers]
  | cons byte line =>
      cases decoded : String.fromUTF8? (byte :: line).toByteArray with
      | none => simp [Answers, decoded]
      | some text =>
          cases parsed : Expression.parse (α := α) limit text.toList with
          | error refusal => simp [Answers, decoded, parsed, Except.mapError]
          | ok found => simp [Answers, decoded, parsed, Except.mapError]

theorem fault_of_answer {reason : SessionError}
    (refused : (answer limit operand line : Except SessionError (TermMap α)) = .error reason) :
    LineFault operand reason := by
  unfold answer at refused
  split at refused
  · cases refused
    exact .missing
  · split at refused
    · cases refused
      exact .notText
    · rename_i text _
      cases parsed : Expression.parse (α := α) limit text.toList with
      | ok found =>
          rw [parsed] at refused
          contradiction
      | error error =>
          rw [parsed] at refused
          cases refused
          exact .expression error

theorem no_answer_of_error {reason : SessionError}
    (refused : (answer limit operand line : Except SessionError (TermMap α)) = .error reason)
    (terms : TermMap α) : ¬ Answers limit line terms := by
  intro answers
  rw [answer_eq_ok_iff.mpr answers] at refused
  contradiction

theorem run_readOperand (limit : Nat) (operand : Operand) (input : List UInt8) :
    ((readOperand limit operand : SessionDialogue α (TermMap α)).run input).output = [] ∧
      ((readOperand limit operand : SessionDialogue α (TermMap α)).run input).result =
        answer limit operand (firstLine input) ∧
      (readOperand limit operand : SessionDialogue α (TermMap α)).remaining input =
        afterFirstLine input := by
  simp only [readOperand, ask, bind, andThen, run, remaining, answer]
  split
  · exact ⟨rfl, rfl, rfl⟩
  · cases String.fromUTF8? (firstLine input).toByteArray with
    | none => exact ⟨rfl, rfl, rfl⟩
    | some text =>
        dsimp only
        rw [run_andThen, run_logAll, remaining_andThen_of_ok _ (by rw [run_logAll])]
        simp only [followedBy, run_ofExcept, remaining_logAll, remaining_ofExcept,
          List.nil_append, and_self]

/-- The prompt is written whatever the answer is. -/
theorem run_promptOperand (limit : Nat) (operand : Operand) (input : List UInt8) :
    ((promptOperand operand (readOperand limit operand) :
      SessionDialogue α (TermMap α)).run input).output = operand.prompt.toList ∧
    ((promptOperand operand (readOperand limit operand) :
      SessionDialogue α (TermMap α)).run input).result = answer limit operand (firstLine input) ∧
    (∀ terms : TermMap α, answer limit operand (firstLine input) = .ok terms →
      (promptOperand operand (readOperand limit operand) :
        SessionDialogue α (TermMap α)).remaining input = afterFirstLine input) := by
  obtain ⟨output, result, rest⟩ := run_readOperand (α := α) limit operand input
  simp only [promptOperand, say, log, bind, pure, andThen, run, remaining, run_andThen]
  cases answered : (answer limit operand (firstLine input) : Except SessionError (TermMap α)) with
  | error reason =>
      rw [answered] at result
      refine ⟨?_, ?_, fun terms accepted => by contradiction⟩
      · simp [afterWriting, output_followedBy_of_error result, output]
      · exact result_followedBy_of_error result
  | ok terms =>
      rw [answered] at result
      refine ⟨?_, ?_, fun _ _ => ?_⟩
      · simp [afterWriting, output_followedBy_of_ok result, output, afterReporting]
      · exact result_followedBy_of_ok result
      · rw [remaining_andThen_of_ok _ result]
        exact rest

end Answer

theorem run_sayAll {α : Type} (texts : List String) (input : List UInt8) :
    (sayAll texts : SessionDialogue α Unit).run input =
      ⟨texts.flatMap String.toList, [], .ok ()⟩ := by
  induction texts with
  | nil => rfl
  | cons text texts ih =>
      simp only [sayAll, run, ih]
      rfl

theorem remaining_sayAll {α : Type} (texts : List String) (input : List UInt8) :
    (sayAll texts : SessionDialogue α Unit).remaining input = input := by
  induction texts with
  | nil => rfl
  | cons text texts ih => exact ih

section Division

variable {α : Type} [Zero α] [One α] [Neg α] [Add α] [Mul α] [BEq α]
variable {dividend divisor : TermMap α} {division : Division α}

theorem result_addUp [Written α] (configuration : Configuration) (dividend divisor : TermMap α)
    (input : List UInt8) : ((addUp configuration dividend divisor).run input).result = .ok () := by
  unfold addUp
  split
  · simp only [log, bind, andThen, run]
    split
    · split
      · simp [run, run_sayAll, afterReporting]
      · rfl
    · split
      · simp [run_sayAll, afterReporting]
      · rfl
  · rfl

variable [Div α]

theorem divide_toDense_of_isEmpty (zero_beq : ((0 : α) == 0) = true) (dividend : TermMap α)
    (empty : divisor.isEmpty = true) :
    dividend.toDense.divide divisor.toDense = .error .zeroDivisor := by
  rw [TermMap.toDense_of_isEmpty empty, Dense.divide, if_pos (Dense.isZero_zero zero_beq)]

theorem divide_toDense_of_nonempty (dividend : TermMap α) (nonempty : divisor.isEmpty = false) :
    ∃ division, dividend.toDense.divide divisor.toDense = .ok division :=
  Dense.divide_exists _ (TermMap.lead_toDense_of_nonempty nonempty)

variable [Written α]

/-- Once the operands are divided nothing can fail any more. -/
theorem run_divideOperands_of_ok (configuration : Configuration)
    (divided : dividend.toDense.divide divisor.toDense = .ok division) (input : List UInt8) :
    ∃ sums, ((divideOperands configuration dividend divisor).run input).output =
        (divisionText division).flatMap String.toList ++ sums ∧
      ((divideOperands configuration dividend divisor).run input).result = .ok () := by
  refine ⟨((addUp configuration dividend divisor).run input).output, ?_⟩
  simp [divideOperands, divided, log, bind, andThen, run, run_andThen, followedBy, afterReporting,
    Except.mapError, run_sayAll, remaining_sayAll, result_addUp]

theorem run_divideOperands_of_error (configuration : Configuration) {error : DivisionError}
    (refused : dividend.toDense.divide divisor.toDense = .error error) (input : List UInt8) :
    ((divideOperands configuration dividend divisor).run input).output = [] ∧
      ((divideOperands configuration dividend divisor).run input).result =
        .error (SessionError.ofDivision error) := by
  simp [divideOperands, refused, log, bind, andThen, run, run_andThen, followedBy, afterReporting,
    Except.mapError]

end Division

section Course

variable {α : Type} [Zero α] [One α] [Neg α] [Add α] [Mul α] [Div α] [BEq α] [IntCast α] [Written α]
variable {configuration : Configuration} {input : List UInt8} {dividend divisor : TermMap α}

/-- A first line that is no answer ends the session at its prompt. -/
theorem run_of_dividend_refused {reason : SessionError}
    (refused : (answer configuration.maxDegree .dividend (firstLine input) :
      Except SessionError (TermMap α)) = .error reason) :
    ((session (α := α) configuration).run input).output = Operand.dividend.prompt.toList ∧
      ((session (α := α) configuration).run input).result = .error reason := by
  obtain ⟨output, result, _⟩ :=
    run_promptOperand (α := α) configuration.maxDegree .dividend input
  rw [refused] at result
  rw [session, withAnswers, run_bind]
  exact ⟨(output_followedBy_of_error result).trans output, result_followedBy_of_error result⟩

/-- After an answered first prompt, a second line that is no answer ends it at the second one. -/
theorem run_of_divisor_refused {reason : SessionError}
    (first : Answers configuration.maxDegree (firstLine input) dividend)
    (refused : (answer configuration.maxDegree .divisor (firstLine (afterFirstLine input)) :
      Except SessionError (TermMap α)) = .error reason) :
    ((session (α := α) configuration).run input).output =
        Operand.dividend.prompt.toList ++ Operand.divisor.prompt.toList ∧
      ((session (α := α) configuration).run input).result = .error reason := by
  have answered : answer configuration.maxDegree .dividend (firstLine input) = .ok dividend :=
    answer_eq_ok_iff.mpr first
  obtain ⟨output, result, rest⟩ :=
    run_promptOperand (α := α) configuration.maxDegree .dividend input
  obtain ⟨nextOutput, nextResult, _⟩ :=
    run_promptOperand (α := α) configuration.maxDegree .divisor (afterFirstLine input)
  rw [answered] at result
  rw [refused] at nextResult
  rw [session, withAnswers, run_bind, output_followedBy_of_ok result,
    result_followedBy_of_ok result, rest dividend answered, run_bind,
    output_followedBy_of_error nextResult, result_followedBy_of_error nextResult, output, nextOutput]
  exact ⟨rfl, rfl⟩

theorem run_of_answers (first : Answers configuration.maxDegree (firstLine input) dividend)
    (second : Answers configuration.maxDegree (firstLine (afterFirstLine input)) divisor) :
    ∃ rest, ((session (α := α) configuration).run input).output =
        Operand.dividend.prompt.toList ++ Operand.divisor.prompt.toList ++
          ((divideOperands configuration dividend divisor).run rest).output ∧
      ((session (α := α) configuration).run input).result =
        ((divideOperands configuration dividend divisor).run rest).result := by
  have answered : answer configuration.maxDegree .dividend (firstLine input) = .ok dividend :=
    answer_eq_ok_iff.mpr first
  have nextAnswered : answer configuration.maxDegree .divisor
      (firstLine (afterFirstLine input)) = .ok divisor := answer_eq_ok_iff.mpr second
  obtain ⟨output, result, rest⟩ :=
    run_promptOperand (α := α) configuration.maxDegree .dividend input
  obtain ⟨nextOutput, nextResult, nextRest⟩ :=
    run_promptOperand (α := α) configuration.maxDegree .divisor (afterFirstLine input)
  rw [answered] at result
  rw [nextAnswered] at nextResult
  refine ⟨afterFirstLine (afterFirstLine input), ?_⟩
  rw [session, withAnswers, run_bind, output_followedBy_of_ok result,
    result_followedBy_of_ok result, rest dividend answered, run_bind,
    output_followedBy_of_ok nextResult, result_followedBy_of_ok nextResult,
    nextRest divisor nextAnswered, output, nextOutput, List.append_assoc]
  exact ⟨rfl, rfl⟩

/-- What a session writes and how it ends, by the first thing that is wrong with the lines. -/
inductive Ending (limit : Nat) (first second : List UInt8) :
    List Char → Except SessionError Unit → Prop where
  | dividendRefused {reason : SessionError} (refused : ∀ terms : TermMap α, ¬ Answers limit first terms)
      (fault : LineFault .dividend reason) :
      Ending limit first second Operand.dividend.prompt.toList (.error reason)
  | divisorRefused {reason : SessionError} {dividend : TermMap α}
      (answered : Answers limit first dividend)
      (refused : ∀ terms : TermMap α, ¬ Answers limit second terms)
      (fault : LineFault .divisor reason) :
      Ending limit first second (Operand.dividend.prompt.toList ++ Operand.divisor.prompt.toList)
        (.error reason)
  | zeroDivisor {dividend divisor : TermMap α} (answered : Answers limit first dividend)
      (divisorAnswered : Answers limit second divisor) (empty : divisor.isEmpty = true) :
      Ending limit first second (Operand.dividend.prompt.toList ++ Operand.divisor.prompt.toList)
        (.error .zeroDivisor)
  | divided {dividend divisor : TermMap α} {output : List Char}
      (answered : Answers limit first dividend) (divisorAnswered : Answers limit second divisor)
      (nonempty : divisor.isEmpty = false) :
      Ending limit first second output (.ok ())

theorem ending_run (zero_beq : ((0 : α) == 0) = true) (configuration : Configuration)
    (input : List UInt8) :
    Ending (α := α) configuration.maxDegree (firstLine input) (firstLine (afterFirstLine input))
      ((session (α := α) configuration).run input).output
      ((session (α := α) configuration).run input).result := by
  cases first : (answer configuration.maxDegree .dividend (firstLine input) :
      Except SessionError (TermMap α)) with
  | error reason =>
      obtain ⟨output, result⟩ := run_of_dividend_refused first
      rw [output, result]
      exact .dividendRefused (no_answer_of_error first) (fault_of_answer first)
  | ok dividend =>
      have answered := answer_eq_ok_iff.mp first
      cases second : (answer configuration.maxDegree .divisor
          (firstLine (afterFirstLine input)) : Except SessionError (TermMap α)) with
      | error reason =>
          obtain ⟨output, result⟩ := run_of_divisor_refused answered second
          rw [output, result]
          exact .divisorRefused answered (no_answer_of_error second) (fault_of_answer second)
      | ok divisor =>
          have divisorAnswered := answer_eq_ok_iff.mp second
          obtain ⟨rest, output, result⟩ := run_of_answers answered divisorAnswered
          cases empty : divisor.isEmpty with
          | true =>
              obtain ⟨silent, failed⟩ := run_divideOperands_of_error configuration
                (divide_toDense_of_isEmpty zero_beq dividend empty) rest
              rw [output, result, silent, failed, List.append_nil]
              exact .zeroDivisor answered divisorAnswered empty
          | false =>
              obtain ⟨division, divided⟩ := divide_toDense_of_nonempty dividend empty
              obtain ⟨_, _, succeeded⟩ := run_divideOperands_of_ok configuration divided rest
              rw [result, succeeded]
              exact .divided answered divisorAnswered empty

end Course

end Session

/-- A session succeeds exactly when both lines are polynomials and the divisor is not zero. The
leading coefficient of a divisor is never zero, and before a failure only prompts are written. -/
theorem session_outcome (configuration : Configuration) (input : List UInt8) :
    (((session (α := Float) configuration).run input).result = .ok () ↔
      ∃ dividend divisor : TermMap Float,
        Answers configuration.maxDegree (firstLine input) dividend ∧
        Answers configuration.maxDegree (firstLine (afterFirstLine input)) divisor ∧
        divisor.isEmpty = false) ∧
    (∀ error, ((session (α := Float) configuration).run input).result ≠ .error (.division error)) ∧
    (((session (α := Float) configuration).run input).result = .error .zeroDivisor ↔
      ∃ dividend divisor : TermMap Float,
        Answers configuration.maxDegree (firstLine input) dividend ∧
        Answers configuration.maxDegree (firstLine (afterFirstLine input)) divisor ∧
        divisor.isEmpty = true) ∧
    ∀ reason, ((session (α := Float) configuration).run input).result = .error reason →
      ((∀ dividend : TermMap Float, ¬ Answers configuration.maxDegree (firstLine input) dividend) ∧
        ((session (α := Float) configuration).run input).output = "Enter dividend: ".toList) ∨
      ((∃ dividend : TermMap Float, Answers configuration.maxDegree (firstLine input) dividend) ∧
        ((session (α := Float) configuration).run input).output =
          "Enter dividend: Enter divisor: ".toList) := by
  have ending := Session.ending_run (α := Float) (by decide) configuration input
  generalize ((session (α := Float) configuration).run input).output = output at ending ⊢
  generalize ((session (α := Float) configuration).run input).result = result at ending ⊢
  cases ending with
  | dividendRefused refused fault =>
      have none (dividend : TermMap Float) := refused dividend
      refine ⟨?_, fault.ne_division, ?_, ?_⟩
      · simp [none]
      · simp [none, fault.ne_zeroDivisor]
      · intro _ _
        exact .inl ⟨refused, rfl⟩
  | divisorRefused answered refused fault =>
      have none (divisor : TermMap Float) := refused divisor
      refine ⟨?_, fault.ne_division, ?_, ?_⟩
      · simp [none]
      · simp [none, fault.ne_zeroDivisor]
      · intro _ _
        exact .inr ⟨⟨_, answered⟩, rfl⟩
  | zeroDivisor answered divisorAnswered empty =>
      refine ⟨?_, by simp, ?_, ?_⟩
      · simp only [reduceCtorEq, false_iff]
        rintro ⟨_, other, _, otherAnswered, nonempty⟩
        rw [otherAnswered.unique divisorAnswered, empty] at nonempty
        contradiction
      · simp only [true_iff]
        exact ⟨_, _, answered, divisorAnswered, empty⟩
      · intro _ _
        exact .inr ⟨⟨_, answered⟩, rfl⟩
  | divided answered divisorAnswered nonempty =>
      refine ⟨?_, by simp, ?_, by simp⟩
      · simp only [true_iff]
        exact ⟨_, _, answered, divisorAnswered, nonempty⟩
      · simp only [reduceCtorEq, false_iff]
        rintro ⟨_, other, _, otherAnswered, empty⟩
        rw [otherAnswered.unique divisorAnswered, nonempty] at empty
        contradiction

end LongDivision
