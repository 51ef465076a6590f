import LongDivision.Proofs.Dense.Numerical
import LongDivision.Proofs.Division.Course

/-! Division in place, on one row of numbers: it gives the slots that the loop of a long division
gives, which works on padded polynomials, drops slots and may end early. The two agree up to the sign
of zeros as long as the slots of the divisor are finite.
-/

namespace LongDivision.Division

open LongDivision.Dense

section Recurrence

variable {α : Type} [Zero α] [Sub α] [Mul α] [Div α]

/-- What stands at a position of the dividend's row after some steps of a division in place. The step
at a position divides what stands there by the leading slot of the divisor, and takes that multiple of
the divisor's other slots away from what stands behind. -/
def slotAfter (dividend divisor : Dense α) : (steps position : Nat) → α
  | 0, position => dividend.slots.getD position 0
  | step + 1, position =>
      let quotientSlot := slotAfter dividend divisor step step / divisor.lead
      if step < position ∧ position ≤ step + divisor.degree then
        slotAfter dividend divisor step position -
          quotientSlot * divisor.slots.getD (position - step) 0
      else slotAfter dividend divisor step position

/-- The slot of the quotient that a step finds. -/
def quotientSlot (dividend divisor : Dense α) (step : Nat) : α :=
  slotAfter dividend divisor step step / divisor.lead

theorem slotAfter_succ (dividend divisor : Dense α) (step position : Nat) :
    slotAfter dividend divisor (step + 1) position =
      if step < position ∧ position ≤ step + divisor.degree then
        slotAfter dividend divisor step position -
          quotientSlot dividend divisor step * divisor.slots.getD (position - step) 0
      else slotAfter dividend divisor step position := rfl

end Recurrence

variable {α : Type} [Zero α] [One α] [Neg α] [Add α] [Sub α] [Mul α] [Div α] [BEq α]
variable {same : α → α → Prop} {finite : α → Prop}
variable {dividend divisor quotient remainder : Dense α} {division : Division α} {step : Nat}

/-- After some steps, the quotient holds the slots found so far and the remainder what stands behind
them in the row. -/
structure Follows (same : α → α → Prop) (dividend divisor : Dense α) (step : Nat)
    (quotient remainder : Dense α) : Prop where
  step_le : step ≤ dividend.degree - divisor.degree + 1
  aligned : remainder.isZero = true ∨ step + remainder.degree = dividend.degree
  left (position : Nat) (behind : step ≤ position) (within : position ≤ dividend.degree) :
    same (remainder.coeff (dividend.degree - position)) (slotAfter dividend divisor step position)
  found (position : Nat) (within : position ≤ dividend.degree - divisor.degree) :
    same (quotient.coeff (dividend.degree - divisor.degree - position))
      (if position < step then quotientSlot dividend divisor position else 0)

variable (numerical : Numerical same finite)
include numerical

theorem follows_start : Follows same dividend divisor 0 Dense.zero dividend where
  step_le := Nat.zero_le _
  aligned := .inr (Nat.zero_add _)
  left position _ within := by
    rw [slotAfter, getD_slots within]
    exact numerical.refl _
  found position _ := by
    have zero : (Dense.zero : Dense α).slots = List.replicate 1 0 := rfl
    rw [if_neg (Nat.not_lt_zero position), coeff_eq_rowCoeff, zero, rowCoeff_replicate_zero]
    exact numerical.refl 0

section Steps

variable (follows : Follows same dividend divisor step quotient remainder)
include follows

theorem Follows.same_nextSlot (aligned : step + remainder.degree = dividend.degree) :
    same (remainder.lead / divisor.lead) (quotientSlot dividend divisor step) := by
  have lead := follows.left step (Nat.le_refl _) (by omega)
  have degree : dividend.degree - step = remainder.degree := by omega
  rw [degree, coeff_degree] at lead
  exact numerical.div lead divisor.lead

/-- The slots that a step leaves: it changes as many behind the leading one as the divisor has. -/
theorem Follows.same_coeff_nextRemainder (finiteSlots : ∀ slot ∈ divisor.slots, finite slot)
    (aligned : step + remainder.degree = dividend.degree)
    (reaches : divisor.degree ≤ remainder.degree) {position : Nat} (behind : step < position)
    (within : position ≤ dividend.degree) :
    same
      ((nextRemainder divisor remainder (nextTerm divisor remainder)).coeff
        (dividend.degree - position))
      (slotAfter dividend divisor (step + 1) position) := by
  have below : dividend.degree - position < remainder.degree := by omega
  have inProduct : dividend.degree - position ≤
      divisor.degree + (remainder.degree - divisor.degree) := by omega
  have product := same_coeff_leadingTerm_mul numerical (remainder.lead / divisor.lead)
    (remainder.degree - divisor.degree) finiteSlots inProduct
  have left := follows.left position (Nat.le_of_lt behind) within
  rw [nextRemainder, coeff_dropLead (by rwa [degree_sub_nextTerm_mul reaches]), slotAfter_succ]
  refine numerical.trans (same_coeff_sub numerical remainder _ _) ?_
  by_cases inReach : position ≤ step + divisor.degree
  · have shifted : remainder.degree - divisor.degree ≤ dividend.degree - position := by omega
    have slot : divisor.degree - (position - step) =
        dividend.degree - position - (remainder.degree - divisor.degree) := by omega
    rw [if_pos shifted] at product
    rw [if_pos ⟨behind, inReach⟩, getD_slots (by omega), slot]
    exact numerical.sub left
      (numerical.trans product (numerical.mul (follows.same_nextSlot numerical aligned) _))
  · rw [if_neg (by omega)] at product
    rw [if_neg (fun inside => inReach inside.2)]
    exact numerical.trans (numerical.sub left product) (numerical.sub_zero _)

theorem Follows.same_coeff_add_nextTerm (aligned : step + remainder.degree = dividend.degree)
    (reaches : divisor.degree ≤ remainder.degree) {position : Nat}
    (within : position ≤ dividend.degree - divisor.degree) :
    same
      ((quotient + nextTerm divisor remainder).coeff (dividend.degree - divisor.degree - position))
      (if position < step + 1 then quotientSlot dividend divisor position else 0) := by
  have found := follows.found position within
  refine numerical.trans (same_coeff_add numerical quotient _ _) ?_
  rw [nextTerm, coeff_leadingTerm]
  rcases Nat.lt_trichotomy position step with earlier | rfl | later
  · rw [if_pos earlier] at found
    rw [if_neg (by omega), if_pos (Nat.lt_succ_of_lt earlier)]
    exact numerical.trans (numerical.add_zero _) found
  · rw [if_neg (Nat.lt_irrefl _)] at found
    rw [if_pos (by omega), if_pos (Nat.lt_succ_self _)]
    exact numerical.trans (numerical.add found (follows.same_nextSlot numerical aligned))
      (numerical.zero_add _)
  · rw [if_neg (by omega)] at found
    rw [if_neg (by omega), if_neg (by omega)]
    exact numerical.trans (numerical.add_zero _) found

theorem Follows.next (finiteSlots : ∀ slot ∈ divisor.slots, finite slot)
    (unfinished : ended divisor remainder = false) :
    Follows same dividend divisor (step + 1) (quotient + nextTerm divisor remainder)
      (nextRemainder divisor remainder (nextTerm divisor remainder)) := by
  obtain ⟨nonzero, reaches⟩ := ended_eq_false_iff.mp unfinished
  have aligned := follows.aligned.resolve_left (by rw [nonzero]; exact Bool.false_ne_true)
  refine {
    step_le := by omega
    aligned := ?_
    left := fun position behind within =>
      follows.same_coeff_nextRemainder numerical finiteSlots aligned reaches behind within
    found := fun position within =>
      follows.same_coeff_add_nextTerm numerical aligned reaches within }
  by_cases constant : remainder.degree = 0
  · exact .inl (isZero_nextRemainder_of_constant numerical.zero_beq_zero reaches constant)
  · right
    rw [degree_nextRemainder reaches]
    omega

end Steps

section Vanished

variable (lead : (divisor.lead == 0) = false) (finiteSlots : ∀ slot ∈ divisor.slots, finite slot)
include lead finiteSlots

theorem same_quotientSlot_zero (vanished : same (slotAfter dividend divisor step step) 0) :
    same (quotientSlot dividend divisor step) 0 :=
  numerical.trans (numerical.div vanished divisor.lead)
    (numerical.zero_div (finiteSlots _ List.mem_cons_self) lead)

/-- A row that is zero stays zero, and its quotient slots are zero. -/
theorem same_slotAfter_zero
    (vanished : ∀ position, step ≤ position → position ≤ dividend.degree →
      same (slotAfter dividend divisor step position) 0)
    (count : Nat) {position : Nat} (behind : step + count ≤ position)
    (within : position ≤ dividend.degree) :
    same (slotAfter dividend divisor (step + count) position) 0 := by
  induction count generalizing position with
  | zero => exact vanished position behind within
  | succ count ih =>
      have before : same (slotAfter dividend divisor (step + count) position) 0 :=
        ih (by omega) within
      rw [← Nat.add_assoc, slotAfter_succ]
      split
      · rename_i inReach
        have member : divisor.slots.getD (position - (step + count)) 0 ∈ divisor.slots := by
          rw [List.getD_eq_getElem _ _ (by rw [length_slots, size_eq_degree_succ]; omega)]
          exact List.getElem_mem _
        have factor := same_quotientSlot_zero numerical lead finiteSlots
          (ih (Nat.le_refl (step + count)) (by omega))
        exact numerical.trans (numerical.sub_zero_mul factor (finiteSlots _ member) _) before
      · exact before

/-- A loop that ends early has found all slots: those that are missing are zero. -/
theorem Follows.of_isZero (follows : Follows same dividend divisor step quotient remainder)
    (isZero : remainder.isZero = true) :
    Follows same dividend divisor (dividend.degree - divisor.degree + 1) quotient remainder := by
  have zeros := same_coeff_of_isZero numerical isZero
  have vanished (position : Nat) (behind : step ≤ position) (within : position ≤ dividend.degree) :
      same (slotAfter dividend divisor step position) 0 :=
    numerical.trans (numerical.symm (follows.left position behind within)) (zeros _)
  have later {steps position : Nat} (further : step ≤ steps) (behind : steps ≤ position)
      (within : position ≤ dividend.degree) :
      same (slotAfter dividend divisor steps position) 0 := by
    obtain ⟨count, rfl⟩ := Nat.exists_eq_add_of_le further
    exact same_slotAfter_zero numerical lead finiteSlots vanished count behind within
  refine {
    step_le := Nat.le_refl _
    aligned := .inl isZero
    left := fun position behind within => numerical.trans (zeros _)
      (numerical.symm (later follows.step_le behind within))
    found := fun position within => ?_ }
  have found := follows.found position within
  rw [if_pos (Nat.lt_succ_of_le within)]
  by_cases earlier : position < step
  · rwa [if_pos earlier] at found
  · rw [if_neg earlier] at found
    have slot : same (quotientSlot dividend divisor position) 0 :=
      same_quotientSlot_zero numerical lead finiteSlots
        (later (Nat.le_of_not_lt earlier) (Nat.le_refl position) (by omega))
    exact numerical.trans found (numerical.symm slot)

theorem Follows.run (reaches : divisor.degree ≤ dividend.degree)
    (run : Runs divisor quotient remainder division)
    (follows : Follows same dividend divisor step quotient remainder) :
    Follows same dividend divisor (dividend.degree - divisor.degree + 1) division.quotient
      division.remainder := by
  induction run generalizing step with
  | @stop quotient remainder finished =>
      rcases ended_eq_true_iff.mp finished with isZero | below
      · exact follows.of_isZero numerical lead finiteSlots isZero
      · rcases follows.aligned with isZero | aligned
        · exact follows.of_isZero numerical lead finiteSlots isZero
        · have last : step = dividend.degree - divisor.degree + 1 := by
            have := follows.step_le
            omega
          rwa [← last]
  | step unfinished later ih => exact ih (follows.next numerical finiteSlots unfinished)

end Vanished

/-- A division has the slots that division in place finds: those of the quotient and, for the powers
below the degree of the divisor, what is left in the row. -/
structure InPlace (same : α → α → Prop) (dividend divisor : Dense α) (division : Division α) :
    Prop where
  quotient : List.Forall₂ same division.quotient.slots
    ((List.range (dividend.degree - divisor.degree + 1)).map (quotientSlot dividend divisor))
  remainder (exponent : Nat) : same (division.remainder.coeff exponent)
    (if exponent < divisor.degree then
      slotAfter dividend divisor (dividend.degree - divisor.degree + 1) (dividend.degree - exponent)
    else 0)

theorem Follows.inPlace (reaches : divisor.degree ≤ dividend.degree)
    (course : Course dividend divisor division)
    (follows : Follows same dividend divisor (dividend.degree - divisor.degree + 1)
      division.quotient division.remainder) : InPlace same dividend divisor division := by
  have size := course.quotient_size
  constructor
  · rw [List.forall₂_iff_get]
    refine ⟨by simpa [length_slots] using size, fun position inRow _ => ?_⟩
    have within : position < dividend.degree - divisor.degree + 1 := by
      rwa [length_slots, size] at inRow
    have degree : division.quotient.degree = dividend.degree - divisor.degree := Nat.succ.inj size
    have found := follows.found position (Nat.le_of_lt_succ within)
    rw [if_pos within, ← degree, ← getD_slots (by omega), List.getD_eq_getElem _ _ inRow] at found
    simpa only [List.get_eq_getElem, List.getElem_map, List.getElem_range] using found
  · intro exponent
    split
    · rename_i below
      have left := follows.left (dividend.degree - exponent) (by omega) (Nat.sub_le _ _)
      have power : dividend.degree - (dividend.degree - exponent) = exponent := by omega
      rwa [power] at left
    · rename_i above
      rcases course.remainder_degree with isZero | degree
      · exact same_coeff_of_isZero numerical isZero exponent
      · rw [coeff_of_size_le (by rw [size_eq_degree_succ]; omega)]
        exact numerical.refl 0

end LongDivision.Division

namespace LongDivision.Dense

open Division

variable {α : Type} [Zero α] [One α] [Neg α] [Add α] [Sub α] [Mul α] [Div α] [BEq α]
variable {same : α → α → Prop} {finite : α → Prop} {dividend divisor : Dense α}

theorem divide_inPlace (numerical : Numerical same finite) (nonzero : dividend.isZero = false)
    (lead : (divisor.lead == 0) = false) (finiteSlots : ∀ slot ∈ divisor.slots, finite slot)
    (reaches : divisor.degree ≤ dividend.degree) :
    ∃ division, dividend.divide divisor = .ok division ∧ InPlace same dividend divisor division := by
  obtain ⟨division, accepted⟩ := divide_exists dividend lead
  refine ⟨division, accepted, ?_⟩
  rcases divide_runs numerical.zero_beq_zero accepted with ⟨isZero, _⟩ | ⟨_, run⟩
  · rw [nonzero] at isZero
    contradiction
  · have follows := (follows_start numerical).run numerical lead finiteSlots reaches run
    exact follows.inPlace numerical reaches
      (run.course numerical.zero_beq_zero (ended_eq_false_iff.mpr ⟨nonzero, reaches⟩))

/-- Long division finds what division in place finds: over a field the same slots, and with
floating-point numbers slots of the same values, whatever the dividend is, if the slots of the
divisor are finite. -/
theorem divide_eq_in_place :
    (∀ (K : Type) [Field K] [DecidableEq K] (dividend divisor : Dense K), dividend.isZero = false →
      divisor.lead ≠ 0 → divisor.degree ≤ dividend.degree →
      ∃ division, dividend.divide divisor = .ok division ∧ InPlace Eq dividend divisor division) ∧
    ∀ dividend divisor : Dense Float, dividend.isZero = false → (divisor.lead == 0) = false →
      (∀ slot ∈ divisor.slots, slot.isFinite = true) → divisor.degree ≤ dividend.degree →
      ∃ division, dividend.divide divisor = .ok division ∧
        InPlace Binary64.SameNumber dividend divisor division := by
  constructor
  · intro K _ _ dividend divisor nonzero lead reaches
    exact divide_inPlace numerical_eq nonzero (beq_eq_false_iff_ne.mpr lead) (fun _ _ => trivial)
      reaches
  · intro dividend divisor nonzero lead finiteSlots reaches
    exact divide_inPlace Binary64.numerical_sameNumber nonzero lead finiteSlots reaches

theorem divide_eq_in_place_of_infinite_slot :
    ((⟨2, [3, 5]⟩ : Dense ℚ).isZero = false ∧ (2 : ℚ) ≠ 0 ∧
      ∃ division, (⟨2, [3, 5]⟩ : Dense ℚ).divide ⟨2, [1]⟩ = .ok division ∧
        InPlace Eq ⟨2, [3, 5]⟩ ⟨2, [1]⟩ division) ∧
    (⟨1, [1 / 0, 0]⟩ : Dense Float).isZero = false ∧ ((⟨49, [1]⟩ : Dense Float).lead == 0) = false ∧
      (∀ slot ∈ (⟨49, [1]⟩ : Dense Float).slots, slot.isFinite = true) ∧
      ∃ division, (⟨1, [1 / 0, 0]⟩ : Dense Float).divide ⟨49, [1]⟩ = .ok division ∧
        InPlace Binary64.SameNumber ⟨1, [1 / 0, 0]⟩ ⟨49, [1]⟩ division := by
  have exact : (⟨2, [3, 5]⟩ : Dense ℚ).isZero = false := by decide
  have rounded : (⟨1, [1 / 0, 0]⟩ : Dense Float).isZero = false := by decide
  have lead : ((⟨49, [1]⟩ : Dense Float).lead == 0) = false := by decide
  have finiteSlots : ∀ slot ∈ (⟨49, [1]⟩ : Dense Float).slots, slot.isFinite = true := by decide
  exact ⟨⟨exact, two_ne_zero,
      divide_eq_in_place.1 ℚ ⟨2, [3, 5]⟩ ⟨2, [1]⟩ exact two_ne_zero (by decide)⟩,
    rounded, lead, finiteSlots,
    divide_eq_in_place.2 ⟨1, [1 / 0, 0]⟩ ⟨49, [1]⟩ rounded lead finiteSlots (by decide)⟩

end LongDivision.Dense
