import LongDivision.Proofs.Dialogue.Obeys
import LongDivision.Session

/-! Rules for sessions: what their texts and events are like if all operands are of some kind. They
are stated for the pieces that a session is made of, and a whole session then keeps to them.
-/

namespace LongDivision.Session

open Dialogue

variable {α : Type} {limit : Nat} {written : String → Prop} {reported : Event α → Prop}

theorem obeys_sayAll {texts : List String} (all : ∀ text ∈ texts, written text) :
    (sayAll texts : SessionDialogue α Unit).Obeys written reported fun _ => True := by
  induction texts with
  | nil => trivial
  | cons text texts ih =>
      obtain ⟨first, rest⟩ := List.forall_mem_cons.mp all
      exact ⟨first, ih rest⟩

variable [Zero α] [One α] [Neg α] [Add α] [Mul α] [BEq α] [IntCast α] [Written α]

/-- The rules hold for each piece of a session with operands that are `typed`. -/
structure Rules (limit : Nat) (written : String → Prop) (reported : Event α → Prop)
    (typed : TermMap α → Prop) : Prop where
  parsed : ∀ {text map}, Expression.parse limit text = .ok map → typed map
  prompt : ∀ operand : Operand, written operand.prompt
  divisionText : ∀ division : Division α, ∀ text ∈ divisionText division, written text
  termSumText : ∀ sum : TermSum α, ∀ text ∈ termSumText sum, written text
  termRead : ∀ term, reported (.termRead term)
  operandRead : ∀ operand size, reported (.operandRead operand size)
  dividing : ∀ {dividend divisor : TermMap α}, typed dividend → typed divisor →
    reported (.dividing dividend.toDense divisor.toDense)
  divisionStep : ∀ step, reported (.divisionStep step)
  sumsMerged : ∀ distinct kept, reported (.sumsMerged distinct kept)
  compareSums : ∀ {dividend divisor : TermMap α}, typed dividend → typed divisor →
    reported (compareSums (dividend.toTermSum.merge divisor.toTermSum)
      (dividend.toDense + divisor.toDense))

variable {typed : TermMap α → Prop} {dividend divisor : TermMap α}

theorem Rules.readOperand (rules : Rules limit written reported typed) (operand : Operand) :
    (readOperand limit operand : SessionDialogue α (TermMap α)).Obeys written reported typed := by
  intro line
  dsimp only [andThen]
  split
  · trivial
  · split
    · trivial
    · rename_i text _
      refine (obeys_logAll ?_).andThen fun _ _ => obeys_ofExcept fun map accepted => ?_
      · intro event member
        obtain ⟨term, _, rfl⟩ := List.mem_map.mp member
        exact rules.termRead term
      · cases parsed : Expression.parse (α := α) limit text.toList with
        | error reason =>
            rw [parsed] at accepted
            contradiction
        | ok found =>
            rw [parsed] at accepted
            cases accepted
            exact rules.parsed parsed

theorem Rules.promptOperand (rules : Rules limit written reported typed)
    {answer : SessionDialogue α (TermMap α)} (obeys : answer.Obeys written reported typed)
    (operand : Operand) : (promptOperand operand answer).Obeys written reported typed :=
  ⟨rules.prompt operand,
    obeys.andThen fun terms known => ⟨rules.operandRead operand terms.size, known⟩⟩

theorem Rules.addUp (rules : Rules limit written reported typed) (configuration : Configuration)
    (dividendTyped : typed dividend) (divisorTyped : typed divisor) :
    (addUp configuration dividend divisor).Obeys written reported fun _ => True := by
  have sums : (sayAll (Session.termSumText (dividend.toTermSum.merge divisor.toTermSum)) :
      SessionDialogue α Unit).Obeys written reported fun _ => True :=
    obeys_sayAll (rules.termSumText _)
  unfold Session.addUp
  split
  · refine ⟨rules.sumsMerged _ _, ?_⟩
    dsimp only [andThen]
    split
    · refine ⟨rules.compareSums dividendTyped divisorTyped, ?_⟩
      dsimp only [andThen]
      split
      · exact sums
      · trivial
    · split
      · exact sums
      · trivial
  · trivial

variable [Div α]

theorem Rules.divideOperands (rules : Rules limit written reported typed)
    (configuration : Configuration) (dividendTyped : typed dividend)
    (divisorTyped : typed divisor) :
    (divideOperands configuration dividend divisor).Obeys written reported fun _ => True := by
  have divided : (ofExcept ((dividend.toDense.divide divisor.toDense).mapError
      SessionError.ofDivision) : SessionDialogue α (Division α)).Obeys written reported
        fun _ => True := obeys_ofExcept fun _ _ => trivial
  refine ⟨rules.dividing dividendTyped divisorTyped, divided.andThen fun division _ => ?_⟩
  refine Obeys.andThen (obeys_logAll ?_) fun _ _ => ?_
  · intro event member
    obtain ⟨step, _, rfl⟩ := List.mem_map.mp member
    exact rules.divisionStep step
  · exact (obeys_sayAll (rules.divisionText division)).andThen fun _ _ =>
      rules.addUp configuration dividendTyped divisorTyped

theorem Rules.session {configuration : Configuration}
    (rules : Rules configuration.maxDegree written reported typed) :
    (session (α := α) configuration).Obeys written reported fun _ => True := by
  have answered (operand : Operand) := rules.promptOperand (rules.readOperand operand) operand
  exact (answered .dividend).andThen fun dividend dividendTyped =>
    (answered .divisor).andThen fun divisor divisorTyped =>
      rules.divideOperands configuration dividendTyped divisorTyped

end LongDivision.Session
