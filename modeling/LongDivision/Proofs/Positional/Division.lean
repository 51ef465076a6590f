import LongDivision.Proofs.Division.Run
import LongDivision.Proofs.Positional.Arithmetic

/-! Long division over positions. Its loop goes on until there is nothing to divide, and would be
stopped as unfinished after one turn more than the dividend has slots.
-/

namespace LongDivision.Positional

open LongDivision.Dense LongDivision.Division

variable {α : Type}

/-- Quotient and remainder as rows, and for each turn of the loop the text of its term and the degree
that is left. -/
structure Outcome (α : Type) where
  quotient : List α
  remainder : List α
  notes : List (String × Nat)
  deriving DecidableEq

variable [Zero α]

section Definitions

variable [One α] [Neg α] [Add α] [Mul α] [Div α] [BEq α] [Written α]

def isZero (row : List α) : Bool :=
  row.all (· == 0)

def ended (divisor remainder : List α) : Except Stop Bool :=
  if isZero remainder then .ok true
  else do
    let remainderDegree ← degree remainder
    let divisorDegree ← degree divisor
    .ok (remainderDegree < divisorDegree)

def nextTerm (divisor : List α) (divisorLead : α) (remainder : List α) :
    Except Stop (List α) := do
  let remainderDegree ← degree remainder
  let divisorDegree ← degree divisor
  let gap ← difference remainderDegree divisorDegree
  let remainderLead ← lead remainder
  leadingTerm (remainderLead / divisorLead) (gap + 1)

def nextRemainder (divisor remainder term : List α) : Except Stop (List α) := do
  let multiple ← mul term divisor
  let reduced ← combine (-1) remainder multiple
  dropLead reduced

def reduce (divisor : List α) (divisorLead : α) :
    (count : Nat) → (quotient remainder : List α) → Except Stop (Outcome α)
  | 0, _, _ => .error .unfinished
  | count + 1, quotient, remainder => do
      let finished ← ended divisor remainder
      if finished then .ok ⟨quotient, remainder, []⟩
      else
        let term ← nextTerm divisor divisorLead remainder
        let extended ← combine 1 quotient term
        let reduced ← nextRemainder divisor remainder term
        let termText ← text term
        let reducedDegree ← degree reduced
        let rest ← reduce divisor divisorLead count extended reduced
        .ok { rest with notes := (termText, reducedDegree) :: rest.notes }

def divide (dividend divisor : List α) : Except Stop (Outcome α) :=
  if isZero divisor then .error (.refused .zeroDivisor)
  else do
    let divisorLead ← lead divisor
    let divisorDegree ← degree divisor
    if divisorLead == 0 then .error (.refused (.zeroLead divisorDegree))
    else if isZero dividend then .ok ⟨[0], [0], []⟩
    else
      let dividendDegree ← degree dividend
      if dividendDegree < divisorDegree then .ok ⟨[0], dividend, []⟩
      else reduce divisor divisorLead (dividend.length + 1) [0] dividend

end Definitions

/-- The rows of a division and what is reported of its steps. -/
def Outcome.ofDivision [BEq α] [Written α] (division : Division α) : Outcome α where
  quotient := division.quotient.slots
  remainder := division.remainder.slots
  notes := division.steps.map fun step => (step.term.text, step.remainderDegree)

variable {dividend divisor quotient remainder : Dense α} {division : Division α}

theorem isZero_slots [BEq α] (poly : Dense α) : isZero poly.slots = poly.isZero := rfl

theorem ended_slots [BEq α] (divisor remainder : Dense α) :
    ended divisor.slots remainder.slots = .ok (Division.ended divisor remainder) := by
  rw [ended, Division.ended, isZero_slots]
  cases remainder.isZero with
  | true => rfl
  | false =>
      rw [if_neg Bool.false_ne_true, degree_slots, ok_bind, degree_slots, ok_bind, Bool.false_or]

theorem nextTerm_slots [Div α] (reaches : divisor.degree ≤ remainder.degree) :
    nextTerm divisor.slots divisor.lead remainder.slots =
      .ok (Division.nextTerm divisor remainder).slots := by
  rw [nextTerm, degree_slots, ok_bind, degree_slots, ok_bind, difference_of_le reaches, ok_bind,
    lead_slots, ok_bind, leadingTerm_eq, Division.nextTerm]

variable [One α] [Neg α] [Add α] [Mul α]

theorem nextRemainder_slots (divisor remainder term : Dense α) :
    nextRemainder divisor.slots remainder.slots term.slots =
      .ok (Division.nextRemainder divisor remainder term).slots := by
  rw [nextRemainder, mul_slots, ok_bind, combine_slots, ok_bind, dropLead_slots]
  rfl

variable [BEq α] [Div α] [Written α]

/-- The loop follows a run to its end if it may take one turn more than the run has steps. -/
theorem reduce_slots (run : Runs divisor quotient remainder division) {count : Nat}
    (enough : division.steps.length < count) :
    reduce divisor.slots divisor.lead count quotient.slots remainder.slots =
      .ok (.ofDivision division) := by
  induction run generalizing count with
  | stop finished =>
      cases count with
      | zero => contradiction
      | succ count =>
          rw [reduce, ended_slots, finished]
          rfl
  | @step quotient remainder rest unfinished later ih =>
      cases count with
      | zero => contradiction
      | succ count =>
          obtain ⟨_, reaches⟩ := ended_eq_false_iff.mp unfinished
          have extended : combine 1 quotient.slots (Division.nextTerm divisor remainder).slots =
              .ok (quotient + Division.nextTerm divisor remainder).slots := combine_slots 1 _ _
          rw [reduce, ended_slots, unfinished, ok_bind, if_neg Bool.false_ne_true,
            nextTerm_slots reaches, ok_bind, extended, ok_bind, nextRemainder_slots, ok_bind,
            text_slots, ok_bind, degree_slots, ok_bind, ih (Nat.lt_of_succ_lt_succ enough)]
          rfl

/-- The dividend has at least as many slots as the loop takes turns. -/
theorem reduce_slots_of_reaches (zero_beq : ((0 : α) == 0) = true)
    (reaches : divisor.degree ≤ dividend.degree) :
    reduce divisor.slots divisor.lead (dividend.slots.length + 1) [0] dividend.slots =
      .ok (.ofDivision
        (Division.reduce divisor (dividend.degree - divisor.degree + 1) Dense.zero dividend)) := by
  have run : Runs divisor Dense.zero dividend
      (Division.reduce divisor (dividend.degree - divisor.degree + 1) Dense.zero dividend) := by
    apply runs_reduce zero_beq
    right
    rw [size_eq_degree_succ]
    omega
  apply reduce_slots run
  rw [length_slots]
  rcases run.length_steps zero_beq with none | bound
  · rw [none]
    exact Nat.succ_pos _
  · omega

theorem divide_slots (zero_beq : ((0 : α) == 0) = true) (dividend divisor : Dense α) :
    divide dividend.slots divisor.slots =
      refusable .ofDivision (dividend.divide divisor) := by
  simp only [divide, Dense.divide, isZero_slots, lead_slots, degree_slots, ok_bind]
  split
  · rfl
  · split
    · rfl
    · split
      · rfl
      · split
        · rfl
        · rename_i reaches
          exact reduce_slots_of_reaches zero_beq (Nat.le_of_not_lt reaches)

end LongDivision.Positional
