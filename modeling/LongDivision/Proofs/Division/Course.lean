import LongDivision.Proofs.Division.Run

/-! The course of a division: how many steps it takes, how many slots they leave and how many the
quotient has. All of it is decided by the degrees and by where zeros appear, so that it holds for
floating-point numbers with all their roundings, infinities and NaNs.
-/

namespace LongDivision

namespace Division

open LongDivision.Dense

variable {α : Type} [Zero α] [One α] [Neg α] [Add α] [Mul α] [Div α] [BEq α]
variable {dividend divisor : Dense α} {division : Division α}

/-- What becomes of a nonzero dividend that reaches the degree of the divisor. -/
structure Course (dividend divisor : Dense α) (division : Division α) : Prop where
  runs : Runs divisor Dense.zero dividend division
  steps_pos : 1 ≤ division.steps.length
  steps_le : division.steps.length ≤ dividend.degree - divisor.degree + 1
  degrees : division.steps.map (·.remainderDegree) =
    (List.range division.steps.length).map fun step => dividend.degree - (step + 1)
  quotient_size : division.quotient.size = dividend.degree - divisor.degree + 1
  remainder_degree : division.remainder.isZero = true ∨
    division.remainder.degree + 1 = divisor.degree

theorem Runs.quotient_size_of_zero (run : Runs divisor Dense.zero dividend division)
    (unfinished : ended divisor dividend = false) :
    division.quotient.size = dividend.degree - divisor.degree + 1 := by
  obtain ⟨_, reaches⟩ := ended_eq_false_iff.mp unfinished
  cases run with
  | stop finished => rw [finished] at unfinished; contradiction
  | step _ later =>
      have first : (Dense.zero + nextTerm divisor dividend).size =
          dividend.degree - divisor.degree + 1 := by
        rw [size_add, size_nextTerm]
        exact Nat.max_eq_right (Nat.succ_le_succ (Nat.zero_le _))
      have room := later.quotient_size (by rw [degree_nextRemainder reaches, first]; omega)
      exact room.trans first

theorem Runs.course (zero_beq : ((0 : α) == 0) = true)
    (run : Runs divisor Dense.zero dividend division)
    (unfinished : ended divisor dividend = false) : Course dividend divisor division := by
  obtain ⟨_, reaches⟩ := ended_eq_false_iff.mp unfinished
  have bound := run.length_steps zero_beq
  have some : division.steps ≠ [] := by
    cases run with
    | stop finished => rw [finished] at unfinished; contradiction
    | step _ later => exact List.cons_ne_nil _ _
  have steps := bound.resolve_left some
  rw [size_eq_degree_succ] at steps
  exact {
    runs := run
    steps_pos := List.length_pos_iff.mpr some
    steps_le := by omega
    degrees := run.steps_degrees
    quotient_size := run.quotient_size_of_zero unfinished
    remainder_degree := run.remainder_degree zero_beq
      (.inr (Nat.le_succ_of_le reaches)) }

end Division

namespace Dense

/-- Division by any floating-point divisor with a nonzero leading slot ends, and it ends in the
promised form. -/
theorem divide_course (dividend divisor : Dense Float) :
    (∀ division, dividend.divide divisor = .ok division →
      Reduced divisor division.remainder) ∧
    ((divisor.lead == 0) = false →
      ∃ division, dividend.divide divisor = .ok division ∧
        (divisor.degree = 0 → division.remainder.isZero = true) ∧
        (dividend.isZero = false → divisor.degree ≤ dividend.degree →
          Division.Course dividend divisor division)) := by
  have zero_beq : ((0 : Float) == 0) = true := by decide
  have reduced : ∀ division, dividend.divide divisor = .ok division →
      Reduced divisor division.remainder := by
    intro division accepted
    rcases divide_runs zero_beq accepted with ⟨_, rfl⟩ | ⟨_, run⟩
    · exact .inl (isZero_zero zero_beq)
    · exact run.reduced
  refine ⟨reduced, fun lead => ?_⟩
  obtain ⟨division, accepted⟩ := divide_exists dividend lead
  refine ⟨division, accepted, fun constant => ?_, fun nonzero reaches => ?_⟩
  · exact (reduced division accepted).resolve_right (by omega)
  · rcases divide_runs zero_beq accepted with ⟨zero, _⟩ | ⟨_, run⟩
    · rw [nonzero] at zero
      contradiction
    · exact run.course zero_beq (Division.ended_eq_false_iff.mpr ⟨nonzero, reaches⟩)

theorem divide_course_of_inexact_quotient :
    ((⟨49, []⟩ : Dense Float).lead == 0) = false ∧ ∃ division,
      (⟨1, [1]⟩ : Dense Float).divide ⟨49, []⟩ = .ok division ∧
      Reduced ⟨49, []⟩ division.remainder ∧ division.remainder.isZero = true ∧
      Division.Course ⟨1, [1]⟩ ⟨49, []⟩ division := by
  have lead : ((⟨49, []⟩ : Dense Float).lead == 0) = false := by decide
  obtain ⟨division, accepted, zero, course⟩ := (divide_course ⟨1, [1]⟩ ⟨49, []⟩).2 lead
  exact ⟨lead, division, accepted, (divide_course ⟨1, [1]⟩ ⟨49, []⟩).1 division accepted,
    zero rfl, course (by decide) (by decide)⟩

end Dense

end LongDivision
