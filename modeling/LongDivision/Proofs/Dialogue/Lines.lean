import LongDivision.Proofs.Dialogue.Run

/-! The lines a dialogue asks for. The input after them has no influence on it.
-/

namespace LongDivision

section Lines

variable {first : List UInt8}

theorem firstLine_append (unbroken : lineFeed ∉ first) (rest : List UInt8) :
    firstLine (first ++ lineFeed :: rest) = first ++ [lineFeed] := by
  have passed : ∀ byte ∈ first, decide (byte ≠ lineFeed) = true :=
    fun byte member => decide_eq_true fun same => unbroken (same ▸ member)
  rw [firstLine, List.takeWhile_append_of_pos passed, List.dropWhile_append_of_pos passed]
  simp

theorem afterFirstLine_append (unbroken : lineFeed ∉ first) (rest : List UInt8) :
    afterFirstLine (first ++ lineFeed :: rest) = rest := by
  have whole := firstLine_append_afterFirstLine (first ++ lineFeed :: rest)
  rw [firstLine_append unbroken, List.append_assoc] at whole
  exact (List.cons.inj (List.append_cancel_left whole)).2

/-- The first lines of an input. -/
def lines : (count : Nat) → (input : List UInt8) → List (List UInt8)
  | 0, _ => []
  | count + 1, input => firstLine input :: lines count (afterFirstLine input)

end Lines

namespace Dialogue

variable {ε ω β γ : Type}

/-- How many lines a dialogue asks for. -/
def asked : Dialogue ε ω β → (input : List UInt8) → Nat
  | done _, _ => 0
  | fail _, _ => 0
  | write _ rest, input => rest.asked input
  | report _ rest, input => rest.asked input
  | readLine rest, input => (rest (firstLine input)).asked (afterFirstLine input) + 1

theorem run_eq_of_lines {dialogue : Dialogue ε ω β} {count : Nat} {input other : List UInt8}
    (enough : dialogue.asked input ≤ count) (same : lines count input = lines count other) :
    dialogue.run input = dialogue.run other := by
  induction dialogue generalizing count input other with
  | done value => rfl
  | fail reason => rfl
  | write text rest ih => rw [run, run, ih enough same]
  | report event rest ih => rw [run, run, ih enough same]
  | readLine rest ih =>
      cases count with
      | zero => contradiction
      | succ count =>
          obtain ⟨first, later⟩ := List.cons.inj same
          rw [run, run, ← first]
          exact ih (firstLine input) (Nat.le_of_succ_le_succ enough) later

section Sequence

variable {dialogue : Dialogue ε ω β} {next : β → Dialogue ε ω γ} {input : List UInt8}

theorem asked_andThen_of_error {reason : ε} (result : (dialogue.run input).result = .error reason) :
    (dialogue.andThen next).asked input = dialogue.asked input := by
  induction dialogue generalizing input with
  | done value => contradiction
  | fail found => rfl
  | write text rest ih => exact ih result
  | report event rest ih => exact ih result
  | readLine rest ih => exact congrArg (· + 1) (ih (firstLine input) result)

theorem asked_andThen_of_ok {value : β} (result : (dialogue.run input).result = .ok value) :
    (dialogue.andThen next).asked input =
      dialogue.asked input + (next value).asked (dialogue.remaining input) := by
  induction dialogue generalizing input with
  | done found =>
      cases result
      exact (Nat.zero_add _).symm
  | fail reason => contradiction
  | write text rest ih => exact ih result
  | report event rest ih => exact ih result
  | readLine rest ih =>
      rw [andThen, asked, asked, ih (firstLine input) result, Nat.add_right_comm]
      rfl

theorem asked_andThen_le {later : Nat} (nextLe : ∀ value rest, (next value).asked rest ≤ later)
    (input : List UInt8) : (dialogue.andThen next).asked input ≤ dialogue.asked input + later := by
  cases result : (dialogue.run input).result with
  | error reason =>
      rw [asked_andThen_of_error result]
      exact Nat.le_add_right _ _
  | ok value =>
      rw [asked_andThen_of_ok result]
      exact Nat.add_le_add_left (nextLe _ _) _

theorem asked_andThen_of_silent (silent : ∀ value rest, (next value).asked rest = 0)
    (input : List UInt8) : (dialogue.andThen next).asked input = dialogue.asked input := by
  cases result : (dialogue.run input).result with
  | error reason => exact asked_andThen_of_error result
  | ok value => rw [asked_andThen_of_ok result, silent, Nat.add_zero]

end Sequence

@[simp]
theorem asked_logAll (events : List ω) (input : List UInt8) :
    (logAll events : Dialogue ε ω Unit).asked input = 0 := by
  induction events with
  | nil => rfl
  | cons event events ih => exact ih

@[simp]
theorem asked_ofExcept (outcome : Except ε β) (input : List UInt8) :
    (ofExcept outcome : Dialogue ε ω β).asked input = 0 := by
  cases outcome with
  | ok value => rfl
  | error reason => rfl

end Dialogue

end LongDivision
