import LongDivision.Dialogue

/-! Dialogues whose output is limited. They go as with an unlimited one up to the first text that
does not fit, and end there.
-/

namespace LongDivision.Dialogue

variable {ε ω β : Type} {full : ε} {limit : Nat} {input : List UInt8}

theorem runLimited_of_fits (dialogue : Dialogue ε ω β)
    (fits : (dialogue.run input).output.length ≤ limit) :
    dialogue.runLimited full limit input = dialogue.run input := by
  induction dialogue generalizing limit input with
  | done value => rfl
  | fail reason => rfl
  | write text rest ih =>
      simp only [run, Transcript.afterWriting, List.length_append, String.length_toList] at fits
      have first : text.length ≤ limit := by omega
      rw [runLimited, if_pos first, ih (by omega), run]
  | report event rest ih => rw [runLimited, ih fits, run]
  | readLine rest ih => exact ih (firstLine input) fits

/-- The text that does not fit is cut at the limit, and nothing is reported after it. -/
theorem runLimited_of_overflow (dialogue : Dialogue ε ω β)
    (overflow : limit < (dialogue.run input).output.length) :
    ∃ events, events <+: (dialogue.run input).events ∧
      dialogue.runLimited full limit input =
        ⟨(dialogue.run input).output.take limit, events, .error full⟩ := by
  induction dialogue generalizing limit input with
  | done value => contradiction
  | fail reason => contradiction
  | write text rest ih =>
      simp only [run, Transcript.afterWriting, List.length_append, String.length_toList] at overflow
      by_cases first : text.length ≤ limit
      · have remaining : limit - text.length < (rest.run input).output.length := by omega
        obtain ⟨events, isPrefix, later⟩ := ih remaining
        have whole : text.toList.take limit = text.toList :=
          List.take_of_length_le (by rwa [String.length_toList])
        refine ⟨events, isPrefix, ?_⟩
        rw [runLimited, if_pos first, later, run]
        simp only [Transcript.afterWriting, List.take_append, String.length_toList, whole]
      · refine ⟨[], List.nil_prefix, ?_⟩
        have inside : limit ≤ text.toList.length := by
          rw [String.length_toList]
          omega
        rw [runLimited, if_neg first, run]
        simp only [Transcript.afterWriting, List.take_append_of_le_length inside]
  | report event rest ih =>
      obtain ⟨events, isPrefix, later⟩ := ih overflow
      refine ⟨event :: events, List.cons_prefix_cons.mpr ⟨rfl, isPrefix⟩, ?_⟩
      rw [runLimited, later, run]
      rfl
  | readLine rest ih => exact ih (firstLine input) overflow

end LongDivision.Dialogue
