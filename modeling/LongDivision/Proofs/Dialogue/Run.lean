import LongDivision.Dialogue

/-! Dialogues one after the other: what the first one writes and reports stands in front, and the
second one gets the input that the first one left.
-/

namespace LongDivision

variable {ε ω β γ : Type}

namespace Transcript

def followedBy (transcript : Transcript ε ω β) (next : β → Transcript ε ω γ) :
    Transcript ε ω γ :=
  match transcript.result with
  | .error reason => ⟨transcript.output, transcript.events, .error reason⟩
  | .ok value =>
      ⟨transcript.output ++ (next value).output, transcript.events ++ (next value).events,
        (next value).result⟩

variable {transcript : Transcript ε ω β} {next : β → Transcript ε ω γ}

theorem output_followedBy_of_ok {value : β} (result : transcript.result = .ok value) :
    (transcript.followedBy next).output = transcript.output ++ (next value).output := by
  rw [followedBy, result]

theorem events_followedBy_of_ok {value : β} (result : transcript.result = .ok value) :
    (transcript.followedBy next).events = transcript.events ++ (next value).events := by
  rw [followedBy, result]

theorem result_followedBy_of_ok {value : β} (result : transcript.result = .ok value) :
    (transcript.followedBy next).result = (next value).result := by
  rw [followedBy, result]

theorem output_followedBy_of_error {reason : ε} (result : transcript.result = .error reason) :
    (transcript.followedBy next).output = transcript.output := by
  rw [followedBy, result]

theorem result_followedBy_of_error {reason : ε} (result : transcript.result = .error reason) :
    (transcript.followedBy next).result = .error reason := by
  rw [followedBy, result]

theorem ok_of_followedBy {last : γ} (result : (transcript.followedBy next).result = .ok last) :
    ∃ value, transcript.result = .ok value ∧ (next value).result = .ok last := by
  cases first : transcript.result with
  | error reason =>
      rw [result_followedBy_of_error first] at result
      contradiction
  | ok value => exact ⟨value, rfl, (result_followedBy_of_ok first).symm.trans result⟩

theorem followedBy_afterWriting (text : List Char) :
    (transcript.afterWriting text).followedBy next =
      (transcript.followedBy next).afterWriting text := by
  obtain ⟨output, events, result⟩ := transcript
  cases result with
  | error reason => rfl
  | ok value => simp only [followedBy, afterWriting, List.append_assoc]

theorem followedBy_afterReporting (event : ω) :
    (transcript.afterReporting event).followedBy next =
      (transcript.followedBy next).afterReporting event := by
  obtain ⟨output, events, result⟩ := transcript
  cases result with
  | error reason => rfl
  | ok value => simp only [followedBy, afterReporting, List.cons_append]

theorem output_followedBy_congr {δ : Type} {other : β → Transcript ε ω δ}
    (same : ∀ value, (next value).output = (other value).output) :
    (transcript.followedBy next).output = (transcript.followedBy other).output := by
  cases result : transcript.result with
  | error reason => rw [output_followedBy_of_error result, output_followedBy_of_error result]
  | ok value => rw [output_followedBy_of_ok result, output_followedBy_of_ok result, same]

theorem result_followedBy_congr {other : β → Transcript ε ω γ}
    (same : ∀ value, (next value).result = (other value).result) :
    (transcript.followedBy next).result = (transcript.followedBy other).result := by
  cases result : transcript.result with
  | error reason => rw [result_followedBy_of_error result, result_followedBy_of_error result]
  | ok value => rw [result_followedBy_of_ok result, result_followedBy_of_ok result, same]

end Transcript

namespace Dialogue

theorem andThen_assoc {δ : Type} (dialogue : Dialogue ε ω β) (next : β → Dialogue ε ω γ)
    (last : γ → Dialogue ε ω δ) :
    (dialogue.andThen next).andThen last =
      dialogue.andThen fun value => (next value).andThen last := by
  induction dialogue with
  | done value => rfl
  | fail reason => rfl
  | write text rest ih => rw [andThen, andThen, andThen, ih]
  | report event rest ih => rw [andThen, andThen, andThen, ih]
  | readLine rest ih =>
      rw [andThen, andThen, andThen]
      exact congrArg readLine (funext ih)

/-- The input that is left when a dialogue ends. -/
def remaining : Dialogue ε ω β → (input : List UInt8) → List UInt8
  | done _, input => input
  | fail _, input => input
  | write _ rest, input => rest.remaining input
  | report _ rest, input => rest.remaining input
  | readLine rest, input => (rest (firstLine input)).remaining (afterFirstLine input)

theorem run_andThen (dialogue : Dialogue ε ω β) (next : β → Dialogue ε ω γ)
    (input : List UInt8) :
    (dialogue.andThen next).run input =
      (dialogue.run input).followedBy fun value =>
        (next value).run (dialogue.remaining input) := by
  induction dialogue generalizing input with
  | done value => simp only [andThen, run, remaining, Transcript.followedBy, List.nil_append]
  | fail reason => rfl
  | write text rest ih =>
      simp only [andThen, run, remaining, ih, Transcript.followedBy_afterWriting]
  | report event rest ih =>
      simp only [andThen, run, remaining, ih, Transcript.followedBy_afterReporting]
  | readLine rest ih => exact ih (firstLine input) (afterFirstLine input)

theorem run_bind (dialogue : Dialogue ε ω β) (next : β → Dialogue ε ω γ) (input : List UInt8) :
    (dialogue >>= next).run input =
      (dialogue.run input).followedBy fun value =>
        (next value).run (dialogue.remaining input) :=
  run_andThen dialogue next input

theorem remaining_andThen_of_ok {dialogue : Dialogue ε ω β} {value : β} {input : List UInt8}
    (next : β → Dialogue ε ω γ) (result : (dialogue.run input).result = .ok value) :
    (dialogue.andThen next).remaining input =
      (next value).remaining (dialogue.remaining input) := by
  induction dialogue generalizing input with
  | done found =>
      cases result
      rfl
  | fail reason => cases result
  | write text rest ih => exact ih result
  | report event rest ih => exact ih result
  | readLine rest ih => exact ih (firstLine input) result

@[simp]
theorem run_logAll (events : List ω) (input : List UInt8) :
    (logAll events : Dialogue ε ω Unit).run input = ⟨[], events, .ok ()⟩ := by
  induction events with
  | nil => rfl
  | cons event events ih =>
      simp only [logAll, run, ih]
      rfl

@[simp]
theorem remaining_logAll (events : List ω) (input : List UInt8) :
    (logAll events : Dialogue ε ω Unit).remaining input = input := by
  induction events with
  | nil => rfl
  | cons event events ih => exact ih

@[simp]
theorem run_ofExcept (outcome : Except ε β) (input : List UInt8) :
    (ofExcept outcome : Dialogue ε ω β).run input = ⟨[], [], outcome⟩ := by
  cases outcome with
  | ok value => rfl
  | error reason => rfl

@[simp]
theorem remaining_ofExcept (outcome : Except ε β) (input : List UInt8) :
    (ofExcept outcome : Dialogue ε ω β).remaining input = input := by
  cases outcome with
  | ok value => rfl
  | error reason => rfl

@[simp]
theorem run_attempt {δ : Type} (dialogue : Dialogue ε ω β) (input : List UInt8) :
    (dialogue.attempt : Dialogue δ ω (Except ε β)).run input =
      ⟨(dialogue.run input).output, (dialogue.run input).events, .ok (dialogue.run input).result⟩ := by
  induction dialogue generalizing input with
  | done value => rfl
  | fail reason => rfl
  | write text rest ih => simp only [attempt, run, ih, Transcript.afterWriting]
  | report event rest ih => simp only [attempt, run, ih, Transcript.afterReporting]
  | readLine rest ih => exact ih (firstLine input) (afterFirstLine input)

end Dialogue

end LongDivision
