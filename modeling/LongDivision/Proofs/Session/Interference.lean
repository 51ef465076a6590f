import LongDivision.Proofs.Dialogue.Lines
import LongDivision.Proofs.Session.Outcome

/-! What a session does not depend on: the settings for what is reported, and the input after the
lines it asks for. The setting that shows the sum only adds to the output of a session that
succeeds.
-/

namespace LongDivision

open Transcript Dialogue

namespace Session

section Lines

variable {α : Type}

theorem asked_sayAll (texts : List String) (input : List UInt8) :
    (sayAll texts : SessionDialogue α Unit).asked input = 0 := by
  induction texts with
  | nil => rfl
  | cons text texts ih => exact ih

variable [Zero α] [Add α] [BEq α] [IntCast α]

theorem asked_readOperand (limit : Nat) (operand : Operand) (input : List UInt8) :
    (readOperand limit operand : SessionDialogue α (TermMap α)).asked input = 1 := by
  simp only [readOperand, ask, bind, andThen, asked]
  split
  · rfl
  · split
    · rfl
    · rw [asked_andThen_of_silent fun _ _ => asked_ofExcept _ _, asked_logAll]

theorem asked_promptOperand (limit : Nat) (operand : Operand) (input : List UInt8) :
    (promptOperand operand (readOperand limit operand) :
      SessionDialogue α (TermMap α)).asked input = 1 := by
  simp only [promptOperand, say, bind, andThen, asked]
  exact (asked_andThen_of_silent (fun _ _ => rfl) input).trans (asked_readOperand _ _ _)

end Lines

section Sum

variable {α : Type} [Written α]

theorem flatMap_termSumText (sum : TermSum α) :
    (termSumText sum).flatMap String.toList = "Method 2: Term List\n".toList ++
      sum.terms.flatMap fun term => (TermSum.termLine term).toList := by
  simp only [termSumText, TermSum.text, List.flatMap_cons, List.flatMap_nil, List.append_nil,
    String.toList_join, List.flatMap_map]

variable [Zero α] [One α] [Neg α] [Add α] [Mul α] [BEq α]

theorem output_addUp (configuration : Configuration) (dividend divisor : TermMap α)
    (input : List UInt8) :
    ((addUp configuration dividend divisor).run input).output =
      if configuration.showTermSum then
        (termSumText (dividend.toTermSum + divisor.toTermSum)).flatMap String.toList
      else [] := by
  unfold addUp
  cases configuration.showTermSum with
  | false =>
      split
      · simp only [log, bind, andThen, run]
        split <;> rfl
      · rfl
  | true =>
      simp only [Bool.true_or, if_true, log, bind, andThen, run]
      split
      · simp only [run, run_sayAll, afterReporting]
        rfl
      · simp only [run_sayAll, afterReporting]
        rfl

theorem asked_addUp (configuration : Configuration) (dividend divisor : TermMap α)
    (input : List UInt8) : (addUp configuration dividend divisor).asked input = 0 := by
  unfold addUp
  split
  · simp only [log, bind, andThen, asked]
    split
    · split
      · exact asked_sayAll _ input
      · rfl
    · split
      · exact asked_sayAll _ input
      · rfl
  · rfl

variable [Div α]

theorem asked_divideOperands (configuration : Configuration) (dividend divisor : TermMap α)
    (input : List UInt8) : (divideOperands configuration dividend divisor).asked input = 0 := by
  simp only [divideOperands, log, bind, andThen, asked]
  rw [asked_andThen_of_silent (fun division rest => ?_) input, asked_ofExcept]
  rw [asked_andThen_of_silent (fun _ last => ?_) rest, asked_logAll]
  rw [asked_andThen_of_silent (fun _ _ => asked_addUp configuration dividend divisor _) last,
    asked_sayAll]

end Sum

section Course

variable {α : Type} [Zero α] [One α] [Neg α] [Add α] [Mul α] [Div α] [BEq α] [IntCast α] [Written α]

/-- The part of a session that comes before the operands are added up, with the operands for its
result. -/
def operandsDivided (limit : Nat) : SessionDialogue α (TermMap α × TermMap α) := do
  let dividend ← promptOperand .dividend (readOperand limit .dividend)
  let divisor ← promptOperand .divisor (readOperand limit .divisor)
  Dialogue.log (.dividing dividend.toDense divisor.toDense)
  let division ← Dialogue.ofExcept
    ((dividend.toDense.divide divisor.toDense).mapError SessionError.ofDivision)
  Dialogue.logAll (division.steps.map Event.divisionStep)
  sayAll (divisionText division)
  return (dividend, divisor)

theorem session_eq_andThen (configuration : Configuration) :
    session (α := α) configuration = (operandsDivided configuration.maxDegree).andThen
      fun operands => addUp configuration operands.1 operands.2 := by
  simp only [session, withAnswers, divideOperands, operandsDivided, bind, pure, andThen_assoc,
    andThen]

theorem run_session (configuration : Configuration) (input : List UInt8) :
    (session (α := α) configuration).run input =
      ((operandsDivided configuration.maxDegree).run input).followedBy fun operands =>
        (addUp configuration operands.1 operands.2).run
          ((operandsDivided (α := α) configuration.maxDegree).remaining input) := by
  rw [session_eq_andThen, run_andThen]

variable {limit : Nat} {input : List UInt8}

theorem answers_of_operandsDivided {operands : TermMap α × TermMap α}
    (divided : ((operandsDivided limit).run input).result = .ok operands) :
    Answers limit (firstLine input) operands.1 ∧
      Answers limit (firstLine (afterFirstLine input)) operands.2 := by
  obtain ⟨_, result, rest⟩ := run_promptOperand (α := α) limit .dividend input
  obtain ⟨_, nextResult, _⟩ := run_promptOperand (α := α) limit .divisor (afterFirstLine input)
  rw [operandsDivided, run_bind] at divided
  obtain ⟨dividend, answered, divided⟩ := ok_of_followedBy divided
  rw [result] at answered
  rw [rest dividend answered, run_bind] at divided
  obtain ⟨divisor, nextAnswered, divided⟩ := ok_of_followedBy divided
  rw [nextResult] at nextAnswered
  simp only [log, bind, andThen, run, run_andThen] at divided
  obtain ⟨division, _, divided⟩ := ok_of_followedBy divided
  obtain ⟨_, _, divided⟩ := ok_of_followedBy divided
  obtain ⟨_, _, divided⟩ := ok_of_followedBy divided
  cases divided
  exact ⟨answer_eq_ok_iff.mp answered, answer_eq_ok_iff.mp nextAnswered⟩

/-- One line for each operand. -/
theorem asked_session_le (configuration : Configuration) (input : List UInt8) :
    (session (α := α) configuration).asked input ≤ 2 := by
  have second (dividend : TermMap α) (rest : List UInt8) :
      (promptOperand .divisor (readOperand configuration.maxDegree .divisor) >>= fun divisor =>
        divideOperands configuration dividend divisor).asked rest ≤ 1 := by
    refine Nat.le_of_eq ((asked_andThen_of_silent (fun divisor last => ?_) rest).trans ?_)
    · exact asked_divideOperands configuration dividend divisor last
    · exact asked_promptOperand configuration.maxDegree .divisor rest
  refine Nat.le_trans (asked_andThen_le second input) (Nat.le_of_eq ?_)
  rw [asked_promptOperand]

/-- The second operand is not asked for if the first one is refused. -/
theorem asked_session_of_refused (configuration : Configuration) (input : List UInt8)
    (refused : ∀ terms : TermMap α, ¬ Answers configuration.maxDegree (firstLine input) terms) :
    (session (α := α) configuration).asked input ≤ 1 := by
  obtain ⟨_, result, _⟩ := run_promptOperand (α := α) configuration.maxDegree .dividend input
  cases answered : (answer configuration.maxDegree .dividend (firstLine input) :
      Except SessionError (TermMap α)) with
  | error reason =>
      rw [answered] at result
      refine Nat.le_of_eq ((asked_andThen_of_error result).trans ?_)
      exact asked_promptOperand configuration.maxDegree .dividend input
  | ok terms => exact absurd (answer_eq_ok_iff.mp answered) (refused terms)

end Course

section Settings

variable (configuration : Configuration) (input : List UInt8)

/-- What is written and how a session ends depends on its limit and on what is to be shown. -/
theorem run_eq_of_settings {other : Configuration}
    (limit : other.maxDegree = configuration.maxDegree)
    (shown : other.showTermSum = configuration.showTermSum) :
    ((session (α := Float) other).run input).output =
        ((session (α := Float) configuration).run input).output ∧
      ((session (α := Float) other).run input).result =
        ((session (α := Float) configuration).run input).result := by
  rw [run_session, run_session, limit]
  constructor
  · refine output_followedBy_congr fun operands => ?_
    rw [output_addUp, output_addUp, shown]
  · refine result_followedBy_congr fun operands => ?_
    rw [result_addUp, result_addUp]

/-- An output that shows the sum is the one that does not, followed by the sum. -/
def ShowsSum (limit : Nat) (input : List UInt8) (output shownOutput : List Char) : Prop :=
  ∃ dividend divisor : TermMap Float, Answers limit (firstLine input) dividend ∧
    Answers limit (firstLine (afterFirstLine input)) divisor ∧
    shownOutput = output ++ "Method 2: Term List\n".toList ++
      (dividend.toTermSum + divisor.toTermSum).terms.flatMap fun term =>
        (TermSum.termLine term).toList

theorem run_of_shown {other : Configuration} (limit : other.maxDegree = configuration.maxDegree)
    (shown : other.showTermSum = true) (hidden : configuration.showTermSum = false) :
    ((session (α := Float) other).run input).result =
        ((session (α := Float) configuration).run input).result ∧
      (∀ reason, ((session (α := Float) configuration).run input).result = .error reason →
        ((session (α := Float) other).run input).output =
          ((session (α := Float) configuration).run input).output) ∧
      (((session (α := Float) configuration).run input).result = .ok () →
        ShowsSum configuration.maxDegree input
          ((session (α := Float) configuration).run input).output
          ((session (α := Float) other).run input).output) := by
  rw [run_session, run_session, limit]
  refine ⟨result_followedBy_congr fun operands => ?_, ?_, ?_⟩
  · rw [result_addUp, result_addUp]
  · intro reason failed
    cases divided : ((operandsDivided (α := Float) configuration.maxDegree).run input).result with
    | error found => rw [output_followedBy_of_error divided, output_followedBy_of_error divided]
    | ok operands =>
        rw [result_followedBy_of_ok divided, result_addUp] at failed
        contradiction
  · intro succeeded
    obtain ⟨operands, divided, _⟩ := ok_of_followedBy succeeded
    obtain ⟨first, second⟩ := answers_of_operandsDivided divided
    refine ⟨operands.1, operands.2, first, second, ?_⟩
    rw [output_followedBy_of_ok divided, output_followedBy_of_ok divided, output_addUp,
      output_addUp, if_pos shown, if_neg (Bool.eq_false_iff.mp hidden), flatMap_termSumText,
      List.append_nil, List.append_assoc]

end Settings

end Session

/-- Neither the settings for reports nor the input after the lines that are asked for have an
influence on what is written and how a session ends. To show the sum adds it to the output of a
session that succeeds, and changes nothing else. -/
theorem session_noninterference (configuration : Configuration) :
    (∀ verbosity crossCheck input,
      let other := { configuration with verbosity := verbosity, crossCheck := crossCheck }
      ((session (α := Float) other).run input).output =
          ((session (α := Float) configuration).run input).output ∧
        ((session (α := Float) other).run input).result =
          ((session (α := Float) configuration).run input).result) ∧
    (∀ input,
      let hidden := (session (α := Float) { configuration with showTermSum := false }).run input
      let shown := (session (α := Float) { configuration with showTermSum := true }).run input
      shown.result = hidden.result ∧
      (∀ reason, hidden.result = .error reason → shown.output = hidden.output) ∧
      (hidden.result = .ok () →
        Session.ShowsSum configuration.maxDegree input hidden.output shown.output)) ∧
    (∀ first second rest other, lineFeed ∉ first → lineFeed ∉ second →
      (session (α := Float) configuration).run
          (first ++ lineFeed :: (second ++ lineFeed :: rest)) =
        (session (α := Float) configuration).run
          (first ++ lineFeed :: (second ++ lineFeed :: other))) ∧
    ∀ first rest other, lineFeed ∉ first →
      (∀ terms : TermMap Float, ¬ Answers configuration.maxDegree (first ++ [lineFeed]) terms) →
      (session (α := Float) configuration).run (first ++ lineFeed :: rest) =
        (session (α := Float) configuration).run (first ++ lineFeed :: other) := by
  refine ⟨?_, ?_, ?_, ?_⟩
  · intro verbosity crossCheck input
    exact Session.run_eq_of_settings configuration input rfl rfl
  · intro input
    exact Session.run_of_shown { configuration with showTermSum := false } input rfl rfl rfl
  · intro first second rest other unbroken nextUnbroken
    refine run_eq_of_lines (Session.asked_session_le configuration _) ?_
    simp only [lines, firstLine_append unbroken, afterFirstLine_append unbroken,
      firstLine_append nextUnbroken]
  · intro first rest other unbroken refused
    rw [← firstLine_append unbroken rest] at refused
    refine run_eq_of_lines (Session.asked_session_of_refused configuration _ refused) ?_
    simp only [lines, firstLine_append unbroken]

/-- What follows the lines is no text, and the line that is refused is the first one. -/
theorem session_noninterference_of_invalid_rest :
    lineFeed ∉ "x^2-3".toUTF8.data.toList ∧ lineFeed ∉ "x-1".toUTF8.data.toList ∧
    (session (α := Float) {}).run
        ("x^2-3".toUTF8.data.toList ++ lineFeed :: ("x-1".toUTF8.data.toList ++ [lineFeed])) =
      (session (α := Float) {}).run
        ("x^2-3".toUTF8.data.toList ++ lineFeed :: ("x-1".toUTF8.data.toList ++
          [lineFeed, 255])) ∧
    (∀ terms : TermMap Float, ¬ Answers 1024 ("x^".toUTF8.data.toList ++ [lineFeed]) terms) ∧
    (session (α := Float) {}).run ("x^".toUTF8.data.toList ++ [lineFeed]) =
      (session (α := Float) {}).run ("x^".toUTF8.data.toList ++ [lineFeed, 255]) := by
  have unbroken : lineFeed ∉ "x^2-3".toUTF8.data.toList := by decide
  have nextUnbroken : lineFeed ∉ "x-1".toUTF8.data.toList := by decide
  have refused (terms : TermMap Float) :
      ¬ Answers 1024 ("x^".toUTF8.data.toList ++ [lineFeed]) terms := by
    rintro ⟨_, text, decoded, parsed⟩
    obtain rfl : text = "x^\n" := Option.some.inj (decoded.symm.trans rfl)
    have failed : (Expression.parse 1024 "x^\n".toList : Except ExpressionError (TermMap Float)) =
        .error (.invalidTerm "x^") := rfl
    rw [failed] at parsed
    contradiction
  obtain ⟨_, _, afterBoth, afterFirst⟩ := session_noninterference {}
  exact ⟨unbroken, nextUnbroken, afterBoth _ _ [] [255] unbroken nextUnbroken, refused,
    afterFirst _ [] [255] (by decide) refused⟩

end LongDivision
