import LongDivision.Proofs.Dialogue.Limited
import LongDivision.Proofs.Session.Rules
import LongDivision.Proofs.TermMap.Bounded
import LongDivision.Proofs.Text.OneByte

/-! What a session keeps to, whatever is typed in: its texts are of one-byte characters, so that an
output may take any number of bytes of them, and it has nothing to warn of.
-/

namespace LongDivision

open Dialogue

def OneByteText (text : String) : Prop :=
  OneByte text.toList

instance (text : String) : Decidable (OneByteText text) :=
  inferInstanceAs (Decidable (OneByte text.toList))

def Event.Calm {α : Type} (event : Event α) : Prop :=
  event.level ≠ .warn

namespace Session

theorem oneByteText_line {label : String} (ascii : OneByteText label) (poly : Dense Float) :
    OneByteText (label ++ poly.render ++ "\n") := by
  rw [OneByteText, String.toList_append, String.toList_append]
  exact (ascii.append (oneByte_render poly)).append (by decide)

theorem oneByteText_of_mem_divisionText (division : Division Float) :
    ∀ text ∈ divisionText division, OneByteText text := by
  simp only [divisionText, List.forall_mem_cons]
  exact ⟨by decide, oneByteText_line (by decide) _, oneByteText_line (by decide) _, by simp⟩

theorem oneByteText_of_mem_termSumText (sum : TermSum Float) :
    ∀ text ∈ termSumText sum, OneByteText text := by
  simp only [termSumText, List.forall_mem_cons]
  exact ⟨by decide, oneByte_text sum, by simp⟩

variable {dividend divisor : TermMap Float}

theorem compareSums_of_within (dividendWithin : dividend.Within 117)
    (divisorWithin : divisor.Within 117) :
    compareSums (dividend.toTermSum.merge divisor.toTermSum)
      (dividend.toDense + divisor.toDense) = .sumsAgree := by
  have finite := dividendWithin.not_nonfiniteSum divisorWithin (by decide)
  rw [compareSums, if_pos ((TermMap.isZero_sub_iff dividend divisor).mpr finite)]

theorem rules (limit : Nat) :
    Rules limit OneByteText Event.Calm (TermMap.Within 117) where
  parsed accepted := TermMap.within_parse accepted
  prompt operand := by
    cases operand with
    | dividend => exact (by decide : OneByteText "Enter dividend: ")
    | divisor => exact (by decide : OneByteText "Enter divisor: ")
  divisionText := oneByteText_of_mem_divisionText
  termSumText := oneByteText_of_mem_termSumText
  termRead _ := (by decide : Level.trace ≠ .warn)
  operandRead _ _ := (by decide : Level.debug ≠ .warn)
  dividing _ _ := (by decide : Level.info ≠ .warn)
  divisionStep _ := (by decide : Level.trace ≠ .warn)
  sumsMerged _ _ := (by decide : Level.debug ≠ .warn)
  compareSums dividendWithin divisorWithin := by
    rw [compareSums_of_within dividendWithin divisorWithin]
    exact (by decide : Level.debug ≠ .warn)

theorem obeys_session (configuration : Configuration) :
    (session (α := Float) configuration).Obeys OneByteText Event.Calm fun _ => True :=
  (rules configuration.maxDegree).session

theorem oneByte_output (configuration : Configuration) (input : List UInt8) :
    OneByte ((session (α := Float) configuration).run input).output := by
  obtain ⟨texts, all, output⟩ := (obeys_session configuration).texts input
  rw [output]
  exact OneByte.flatMap all

end Session

/-- An output that takes only so many bytes gets the first ones of what an unlimited one gets. It
makes no difference if these are all; otherwise the session fails, whatever its result would have
been, and reports nothing that it would not have reported. -/
theorem session_limited (configuration : Configuration) (input : List UInt8) (limit : Nat) :
    let unlimited := (session (α := Float) configuration).run input
    let limited := (session (α := Float) configuration).runLimited .outputFull limit input
    bytes limited.output = (bytes unlimited.output).take limit ∧
    ((bytes unlimited.output).length ≤ limit →
      limited.result = unlimited.result ∧ limited.events = unlimited.events) ∧
    (limit < (bytes unlimited.output).length →
      limited.result = .error .outputFull ∧ limited.events <+: unlimited.events) := by
  intro unlimited limited
  have oneByte : OneByte unlimited.output := Session.oneByte_output configuration input
  rw [oneByte.length_bytes, ← oneByte.bytes_take]
  by_cases fits : unlimited.output.length ≤ limit
  · have same : limited = unlimited := runLimited_of_fits _ fits
    rw [same, List.take_of_length_le fits]
    exact ⟨rfl, fun _ => ⟨rfl, rfl⟩, fun overflow => absurd fits (Nat.not_le.mpr overflow)⟩
  · obtain ⟨events, isPrefix, cut⟩ : ∃ events, events <+: unlimited.events ∧
        limited = ⟨unlimited.output.take limit, events, .error .outputFull⟩ :=
      runLimited_of_overflow _ (Nat.not_le.mp fits)
    rw [cut]
    exact ⟨rfl, fun within => absurd within fits, fun _ => ⟨rfl, isPrefix⟩⟩

/-- Coefficients that are typed in are finite, however many of them one power has. So their sums
agree in both forms, and a session does not warn. -/
theorem session_never_warns :
    (∀ limit text, ∀ map : TermMap Float, Expression.parse limit text = .ok map →
      ∀ term ∈ map.terms, term.coeff.isFinite = true) ∧
    ∀ configuration input, ∀ event ∈ ((session (α := Float) configuration).run input).events,
      event.level ≠ .warn :=
  ⟨fun _ _ _ accepted => (TermMap.within_parse accepted).isFinite,
    fun configuration input => (Session.obeys_session configuration).events input⟩

/-- The coefficients are rounded up to `2 ^ 63` before they are added. -/
theorem session_never_warns_of_greatest_coefficients :
    Expression.parse 1024 "9223372036854775807*x+9223372036854775807*x".toList =
      .ok (TermMap.ofTerms [⟨1, (9223372036854775807 : Int)⟩, ⟨1, (9223372036854775807 : Int)⟩] :
        TermMap Float) ∧
    (∀ term ∈ (TermMap.ofTerms [⟨1, (9223372036854775807 : Int)⟩,
      ⟨1, (9223372036854775807 : Int)⟩] : TermMap Float).terms, term.coeff.isFinite = true) ∧
    ∀ event ∈ ((session (α := Float) {}).run
      "9223372036854775807*x+9223372036854775807*x\n1\n".toUTF8.data.toList).events,
      event.level ≠ .warn := by
  have accepted : Expression.parse 1024 "9223372036854775807*x+9223372036854775807*x".toList =
      .ok (TermMap.ofTerms [⟨1, (9223372036854775807 : Int)⟩, ⟨1, (9223372036854775807 : Int)⟩] :
        TermMap Float) := rfl
  exact ⟨accepted, session_never_warns.1 1024 _ _ accepted, session_never_warns.2 {} _⟩

end LongDivision
