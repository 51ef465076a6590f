import LongDivision.Dense.Division
import LongDivision.Proofs.Dense.Slots

/-! Long division as a loop without a bound on its steps. Its course depends on the number of slots
only: whatever the coefficient arithmetic does, each step leaves one slot less.
-/

namespace LongDivision

/-- A remainder that leaves nothing to divide. -/
def Dense.Reduced {α : Type} [Zero α] [BEq α] (divisor remainder : Dense α) : Prop :=
  remainder.isZero = true ∨ remainder.degree < divisor.degree

namespace Division

open LongDivision.Dense

variable {α : Type} [Zero α] {divisor quotient remainder : Dense α} {division : Division α}

theorem ended_eq_true_iff [BEq α] :
    ended divisor remainder = true ↔ Reduced divisor remainder := by
  rw [ended, Bool.or_eq_true, decide_eq_true_eq, Reduced]

theorem ended_eq_false_iff [BEq α] :
    ended divisor remainder = false ↔
      remainder.isZero = false ∧ divisor.degree ≤ remainder.degree := by
  rw [ended, Bool.or_eq_false_iff, decide_eq_false_iff_not, Nat.not_lt]

theorem size_nextTerm [Div α] (divisor remainder : Dense α) :
    (nextTerm divisor remainder).size = remainder.degree - divisor.degree + 1 :=
  size_leadingTerm (Nat.succ_pos _)

variable [Add α] [Mul α] [Div α]

/-- The multiple of the divisor has as many slots as the remainder, so that subtracting it adds
none. -/
theorem size_nextTerm_mul (reaches : divisor.degree ≤ remainder.degree) :
    (nextTerm divisor remainder * divisor).size = remainder.size := by
  rw [size_mul, size_nextTerm, size_eq_degree_succ, size_eq_degree_succ]
  omega

variable [One α] [Neg α]

theorem degree_sub_nextTerm_mul (reaches : divisor.degree ≤ remainder.degree) :
    (remainder - nextTerm divisor remainder * divisor).degree = remainder.degree := by
  have size := size_sub remainder (nextTerm divisor remainder * divisor)
  rw [size_nextTerm_mul reaches, Nat.max_self] at size
  exact Nat.succ.inj size

theorem degree_nextRemainder (reaches : divisor.degree ≤ remainder.degree) :
    (nextRemainder divisor remainder (nextTerm divisor remainder)).degree =
      remainder.degree - 1 := by
  rw [nextRemainder, degree_dropLead, degree_sub_nextTerm_mul reaches]

/-- A constant has no slot to spare: it is replaced by zero. -/
theorem nextRemainder_of_constant (reaches : divisor.degree ≤ remainder.degree)
    (constant : remainder.degree = 0) :
    nextRemainder divisor remainder (nextTerm divisor remainder) = Dense.zero := by
  apply dropLead_of_degree_eq_zero
  rw [degree_sub_nextTerm_mul reaches, constant]

variable [BEq α]

/-- Steps are taken until there is none to take. -/
inductive Runs (divisor : Dense α) : (quotient remainder : Dense α) → Division α → Prop where
  | stop {quotient remainder : Dense α} (finished : ended divisor remainder = true) :
      Runs divisor quotient remainder ⟨quotient, remainder, []⟩
  | step {quotient remainder : Dense α} {rest : Division α}
      (unfinished : ended divisor remainder = false)
      (later : Runs divisor (quotient + nextTerm divisor remainder)
        (nextRemainder divisor remainder (nextTerm divisor remainder)) rest) :
      Runs divisor quotient remainder
        { rest with
          steps := ⟨nextTerm divisor remainder,
            (nextRemainder divisor remainder (nextTerm divisor remainder)).degree⟩ :: rest.steps }

section ZeroIsZero

variable (zero_beq : ((0 : α) == 0) = true)
include zero_beq

theorem isZero_nextRemainder_of_constant (reaches : divisor.degree ≤ remainder.degree)
    (constant : remainder.degree = 0) :
    (nextRemainder divisor remainder (nextTerm divisor remainder)).isZero = true := by
  rw [nextRemainder_of_constant reaches constant, isZero_zero zero_beq]

/-- As many steps as the remainder has slots beyond those of a reduced one are enough, so that
bounding the loop by them changes nothing. -/
theorem runs_reduce {count : Nat}
    (enough : remainder.isZero = true ∨ remainder.size ≤ count + divisor.degree) :
    Runs divisor quotient remainder (reduce divisor count quotient remainder) := by
  induction count generalizing quotient remainder with
  | zero =>
      rw [size_eq_degree_succ, Nat.zero_add] at enough
      exact .stop (ended_eq_true_iff.mpr enough)
  | succ count ih =>
      rw [reduce]
      cases state : ended divisor remainder with
      | true => exact .stop state
      | false =>
          obtain ⟨nonzero, reaches⟩ := ended_eq_false_iff.mp state
          refine .step state (ih ?_)
          by_cases constant : remainder.degree = 0
          · exact .inl (isZero_nextRemainder_of_constant zero_beq reaches constant)
          · have slots := enough.resolve_left (by rw [nonzero]; exact Bool.false_ne_true)
            rw [size_eq_degree_succ] at slots
            right
            rw [size_eq_degree_succ, degree_nextRemainder reaches]
            omega

end ZeroIsZero

theorem Runs.reduced (run : Runs divisor quotient remainder division) :
    Reduced divisor division.remainder := by
  induction run with
  | stop finished => exact ended_eq_true_iff.mp finished
  | step unfinished later ih => exact ih

theorem Runs.steps_of_ended (run : Runs divisor quotient remainder division)
    (finished : ended divisor remainder = true) : division.steps = [] := by
  cases run with
  | stop => rfl
  | step unfinished later => rw [finished] at unfinished; contradiction

theorem Runs.steps_degrees (run : Runs divisor quotient remainder division) :
    division.steps.map (·.remainderDegree) =
      (List.range division.steps.length).map fun step => remainder.degree - (step + 1) := by
  induction run with
  | stop finished => rfl
  | @step quotient remainder rest unfinished later ih =>
      obtain ⟨_, reaches⟩ := ended_eq_false_iff.mp unfinished
      have below : (fun step => remainder.degree - 1 - (step + 1)) =
          (fun step => remainder.degree - (step + 1)) ∘ Nat.succ := by
        funext step
        simp only [Function.comp_apply]
        omega
      rw [degree_nextRemainder reaches, below] at ih
      simp only [List.map_cons, List.length_cons, List.range_succ_eq_map, List.map_map, ih,
        degree_nextRemainder reaches, Nat.zero_add]

/-- Later terms are shorter than earlier ones, so that they find room in the quotient. -/
theorem Runs.quotient_size (run : Runs divisor quotient remainder division)
    (room : remainder.degree - divisor.degree + 1 ≤ quotient.size) :
    division.quotient.size = quotient.size := by
  induction run with
  | stop finished => rfl
  | @step quotient remainder rest unfinished later ih =>
      obtain ⟨_, reaches⟩ := ended_eq_false_iff.mp unfinished
      have kept : (quotient + nextTerm divisor remainder).size = quotient.size := by
        rw [size_add, size_nextTerm, Nat.max_eq_left room]
      rw [degree_nextRemainder reaches, kept] at ih
      exact ih (by omega)

theorem Runs.length_steps (zero_beq : ((0 : α) == 0) = true)
    (run : Runs divisor quotient remainder division) :
    division.steps = [] ∨ division.steps.length + divisor.degree ≤ remainder.size := by
  induction run with
  | stop finished => exact .inl rfl
  | @step quotient remainder rest unfinished later ih =>
      obtain ⟨_, reaches⟩ := ended_eq_false_iff.mp unfinished
      right
      by_cases constant : remainder.degree = 0
      · have zero := isZero_nextRemainder_of_constant zero_beq reaches constant
        have none := later.steps_of_ended (ended_eq_true_iff.mpr (.inl zero))
        simp only [none, List.length_cons, List.length_nil, size_eq_degree_succ]
        omega
      · rw [size_eq_degree_succ, degree_nextRemainder reaches] at ih
        rw [List.length_cons, size_eq_degree_succ]
        rcases ih with none | bound
        · rw [none, List.length_nil]
          omega
        · omega

/-- A run that starts with enough slots ends one slot short of the divisor, unless it ends in zero.
For a constant divisor only zero is left. -/
theorem Runs.remainder_degree (zero_beq : ((0 : α) == 0) = true)
    (run : Runs divisor quotient remainder division)
    (near : remainder.isZero = true ∨ divisor.degree ≤ remainder.size) :
    division.remainder.isZero = true ∨ division.remainder.size = divisor.degree := by
  induction run with
  | @stop quotient remainder finished =>
      change remainder.isZero = true ∨ remainder.size = divisor.degree
      rcases near with zero | near
      · exact .inl zero
      · refine (ended_eq_true_iff.mp finished).imp_right fun below => ?_
        rw [size_eq_degree_succ] at near ⊢
        omega
  | @step quotient remainder rest unfinished later ih =>
      obtain ⟨_, reaches⟩ := ended_eq_false_iff.mp unfinished
      apply ih
      by_cases constant : remainder.degree = 0
      · exact .inl (isZero_nextRemainder_of_constant zero_beq reaches constant)
      · right
        rw [size_eq_degree_succ, degree_nextRemainder reaches]
        omega

theorem Runs.degree_le {bound : Nat} (run : Runs divisor quotient remainder division)
    (quotientBound : quotient.degree ≤ bound) (remainderBound : remainder.degree ≤ bound) :
    division.quotient.degree ≤ bound ∧ division.remainder.degree ≤ bound := by
  induction run with
  | stop finished => exact ⟨quotientBound, remainderBound⟩
  | @step quotient remainder rest unfinished later ih =>
      obtain ⟨_, reaches⟩ := ended_eq_false_iff.mp unfinished
      have size := size_add quotient (nextTerm divisor remainder)
      rw [size_nextTerm, size_eq_degree_succ, size_eq_degree_succ] at size
      apply ih
      · omega
      · rw [degree_nextRemainder reaches]
        omega

end Division

namespace Dense

open Division

variable {α : Type} [Zero α] [One α] [Neg α] [Add α] [Mul α] [Div α] [BEq α]
variable {dividend divisor : Dense α} {division : Division α}

theorem divide_exists (dividend : Dense α) (lead : (divisor.lead == 0) = false) :
    ∃ division, dividend.divide divisor = .ok division := by
  have nonzero : divisor.isZero = false := by
    simp only [isZero, slots, List.all_cons, lead, Bool.false_and]
  simp only [divide, nonzero, lead, Bool.false_eq_true, if_false]
  split
  · exact ⟨_, rfl⟩
  · split
    · exact ⟨_, rfl⟩
    · exact ⟨_, rfl⟩

/-- A zero dividend is replaced by the shortest zero; any other one is taken through the loop. -/
theorem divide_runs (zero_beq : ((0 : α) == 0) = true)
    (accepted : dividend.divide divisor = .ok division) :
    (dividend.isZero = true ∧ division = ⟨zero, zero, []⟩) ∨
      (dividend.isZero = false ∧ Runs divisor zero dividend division) := by
  unfold divide at accepted
  split at accepted
  · contradiction
  · split at accepted
    · contradiction
    · split at accepted
      · rename_i isZero
        cases accepted
        exact .inl ⟨isZero, rfl⟩
      · rename_i nonzero
        refine .inr ⟨Bool.eq_false_iff.mpr nonzero, ?_⟩
        split at accepted
        · rename_i below
          cases accepted
          exact .stop (ended_eq_true_iff.mpr (.inr below))
        · rename_i reaches
          cases accepted
          apply runs_reduce zero_beq
          right
          rw [size_eq_degree_succ]
          omega

/-- Neither the quotient nor the remainder is longer than the dividend. -/
theorem divide_degree_le (zero_beq : ((0 : α) == 0) = true)
    (accepted : dividend.divide divisor = .ok division) :
    division.quotient.degree ≤ dividend.degree ∧ division.remainder.degree ≤ dividend.degree := by
  rcases divide_runs zero_beq accepted with ⟨_, rfl⟩ | ⟨_, run⟩
  · exact ⟨Nat.zero_le _, Nat.zero_le _⟩
  · exact run.degree_le (Nat.zero_le _) (Nat.le_refl _)

end Dense

end LongDivision
