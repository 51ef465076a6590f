import LongDivision.Proofs.Dialogue.Run

/-! Dialogues that keep to rules, whatever they are answered: all texts they write, all events they
report and all values they end with are of some kind.
-/

namespace LongDivision.Dialogue

variable {ε ω β γ : Type} {written : String → Prop} {reported : ω → Prop} {ended : β → Prop}

def Obeys (written : String → Prop) (reported : ω → Prop) (ended : β → Prop) :
    Dialogue ε ω β → Prop
  | done value => ended value
  | fail _ => True
  | write text rest => written text ∧ rest.Obeys written reported ended
  | report event rest => reported event ∧ rest.Obeys written reported ended
  | readLine rest => ∀ line, (rest line).Obeys written reported ended

theorem Obeys.andThen {dialogue : Dialogue ε ω β} {next : β → Dialogue ε ω γ} {last : γ → Prop}
    (obeys : dialogue.Obeys written reported ended)
    (nextObeys : ∀ value, ended value → (next value).Obeys written reported last) :
    (dialogue.andThen next).Obeys written reported last := by
  induction dialogue with
  | done value => exact nextObeys value obeys
  | fail reason => trivial
  | write text rest ih => exact ⟨obeys.1, ih obeys.2⟩
  | report event rest ih => exact ⟨obeys.1, ih obeys.2⟩
  | readLine rest ih => exact fun line => ih line (obeys line)

theorem Obeys.attempt {δ : Type} {dialogue : Dialogue ε ω β}
    (obeys : dialogue.Obeys written reported ended) :
    (dialogue.attempt : Dialogue δ ω (Except ε β)).Obeys written reported fun _ => True := by
  induction dialogue with
  | done value => trivial
  | fail reason => trivial
  | write text rest ih => exact ⟨obeys.1, ih obeys.2⟩
  | report event rest ih => exact ⟨obeys.1, ih obeys.2⟩
  | readLine rest ih => exact fun line => ih line (obeys line)

theorem Obeys.texts {dialogue : Dialogue ε ω β} (obeys : dialogue.Obeys written reported ended)
    (input : List UInt8) :
    ∃ texts : List String, (∀ text ∈ texts, written text) ∧
      (dialogue.run input).output = texts.flatMap String.toList := by
  induction dialogue generalizing input with
  | done value => exact ⟨[], by simp, rfl⟩
  | fail reason => exact ⟨[], by simp, rfl⟩
  | write text rest ih =>
      obtain ⟨texts, all, output⟩ := ih obeys.2 input
      refine ⟨text :: texts, List.forall_mem_cons.mpr ⟨obeys.1, all⟩, ?_⟩
      rw [run, Transcript.afterWriting, output, List.flatMap_cons]
  | report event rest ih => exact ih obeys.2 input
  | readLine rest ih => exact ih (firstLine input) (obeys _) (afterFirstLine input)

theorem Obeys.events {dialogue : Dialogue ε ω β} (obeys : dialogue.Obeys written reported ended)
    (input : List UInt8) : ∀ event ∈ (dialogue.run input).events, reported event := by
  induction dialogue generalizing input with
  | done value => simp [run]
  | fail reason => simp [run]
  | write text rest ih => exact ih obeys.2 input
  | report event rest ih => exact List.forall_mem_cons.mpr ⟨obeys.1, ih obeys.2 input⟩
  | readLine rest ih => exact ih (firstLine input) (obeys _) (afterFirstLine input)

theorem obeys_logAll {events : List ω} (all : ∀ event ∈ events, reported event) :
    (logAll events : Dialogue ε ω Unit).Obeys written reported fun _ => True := by
  induction events with
  | nil => trivial
  | cons event events ih =>
      obtain ⟨first, rest⟩ := List.forall_mem_cons.mp all
      exact ⟨first, ih rest⟩

theorem obeys_ofExcept {outcome : Except ε β} (value : ∀ value, outcome = .ok value → ended value) :
    (ofExcept outcome : Dialogue ε ω β).Obeys written reported ended := by
  cases outcome with
  | ok found => exact value found rfl
  | error reason => trivial

end LongDivision.Dialogue
