import LongDivision.Proofs.Coefficient.Numerical
import LongDivision.Proofs.Dense.Related

/-! The operations of a division read by powers of `x`, up to the sign of zeros: a sum adds the
coefficients of both sides, and a single term times a polynomial shifts and scales its row, whatever
zeros are added to it on the way.
-/

namespace LongDivision.Dense

variable {α : Type} [Zero α] [One α] [Neg α] [Add α] [Sub α] [Mul α] [Div α] [BEq α]
variable {same : α → α → Prop} {finite : α → Prop} (numerical : Numerical same finite)
include numerical

theorem same_coeff_of_isZero {poly : Dense α} (isZero : poly.isZero = true) (exponent : Nat) :
    same (poly.coeff exponent) 0 :=
  (numerical.beq_zero_iff _).mp ((isZero_iff numerical.zero_beq_zero).mp isZero exponent)

section Combinations

variable (left right : Dense α) (exponent : Nat)

theorem same_started :
    same (if exponent < left.size then 0 + left.coeff exponent else 0) (left.coeff exponent) := by
  split
  · exact numerical.zero_add _
  · rename_i above
    rw [coeff_of_size_le (Nat.le_of_not_lt above)]
    exact numerical.refl 0

theorem same_coeff_combine {sign : α} {operation : α → α → α}
    (added : ∀ slot entry, same (slot + sign * entry) (operation slot entry))
    (unchanged : ∀ slot, same (operation slot 0) slot)
    (congr : ∀ {slot slot' : α} (entry : α), same slot slot' →
      same (operation slot entry) (operation slot' entry)) :
    same ((combine sign left right).coeff exponent)
      (operation (left.coeff exponent) (right.coeff exponent)) := by
  have started := same_started numerical left exponent
  rw [coeff_combine]
  by_cases within : exponent < right.size
  · rw [if_pos within]
    exact numerical.trans (added _ _) (congr _ started)
  · rw [if_neg within, coeff_of_size_le (Nat.le_of_not_lt within)]
    exact numerical.trans started (numerical.symm (unchanged _))

theorem same_coeff_add :
    same ((left + right).coeff exponent) (left.coeff exponent + right.coeff exponent) :=
  same_coeff_combine numerical left right exponent
    (fun slot entry => numerical.add (numerical.refl slot) (numerical.one_mul entry))
    numerical.add_zero fun entry slots => numerical.add slots (numerical.refl entry)

theorem same_coeff_sub :
    same ((left - right).coeff exponent) (left.coeff exponent - right.coeff exponent) :=
  same_coeff_combine numerical left right exponent numerical.add_neg_one_mul numerical.sub_zero
    fun entry slots => numerical.sub slots (numerical.refl entry)

end Combinations

section Terms

variable {row : List α}

/-- Adding a zero multiple of a finite row keeps every slot. -/
theorem same_addScaled_zero (finiteRow : ∀ entry ∈ row, finite entry) {buffer kept : List α}
    (close : List.Forall₂ same buffer kept) :
    List.Forall₂ same (addScaled 0 buffer row) kept := by
  induction close generalizing row with
  | nil => cases row <;> exact .nil
  | @cons slot keptSlot buffer kept first rest ih =>
      cases row with
      | nil => exact .cons first rest
      | cons entry row =>
          obtain ⟨finiteEntry, finiteRest⟩ := List.forall_mem_cons.mp finiteRow
          have vanished := numerical.add first (numerical.zero_mul finiteEntry)
          exact .cons (numerical.trans vanished (numerical.add_zero keptSlot)) (ih finiteRest)

theorem same_addProduct_zeros (finiteRow : ∀ entry ∈ row, finite entry) (count : Nat)
    {buffer kept : List α} (close : List.Forall₂ same buffer kept) :
    List.Forall₂ same (addProduct buffer (List.replicate count 0) row) kept := by
  induction count generalizing buffer kept with
  | zero => exact close
  | succ count ih =>
      have scaled := same_addScaled_zero numerical finiteRow close
      rw [List.replicate_succ, addProduct]
      cases added : addScaled 0 buffer row with
      | nil =>
          rw [added] at scaled
          exact scaled
      | cons slot later =>
          rw [added] at scaled
          cases scaled with
          | cons first rest => exact .cons first (ih rest)

/-- Only the leading slot of a single term counts in a product with it: the zeros behind it shift the
multiple of the other factor and add nothing to it. -/
theorem same_slots_leadingTerm_mul (factor : α) (gap : Nat) {poly : Dense α}
    (finiteSlots : ∀ slot ∈ poly.slots, finite slot) :
    List.Forall₂ same (leadingTerm factor (gap + 1) * poly).slots
      (poly.slots.map (factor * ·) ++ List.replicate gap 0) := by
  have size : (leadingTerm factor (gap + 1)).size + poly.size - 1 = poly.slots.length + gap := by
    rw [size_leadingTerm (Nat.succ_pos gap), length_slots]
    omega
  have first : List.Forall₂ same
      (poly.slots.map (fun slot => 0 + factor * slot) ++ List.replicate gap 0)
      (poly.slots.map (factor * ·) ++ List.replicate gap 0) := by
    refine List.rel_append ?_ (List.forall₂_same.mpr fun _ _ => numerical.refl _)
    rw [List.forall₂_map_left_iff, List.forall₂_map_right_iff]
    exact List.forall₂_same.mpr fun slot _ => numerical.zero_add _
  have term : (leadingTerm factor (gap + 1)).slots = factor :: List.replicate gap 0 := rfl
  rw [slots_mul, size, term, addProduct, addScaled_replicate_zero]
  cases first with
  | cons lead rest => exact .cons lead (same_addProduct_zeros numerical finiteSlots gap rest)

theorem same_coeff_leadingTerm_mul (factor : α) (gap : Nat) {poly : Dense α}
    (finiteSlots : ∀ slot ∈ poly.slots, finite slot) {exponent : Nat}
    (within : exponent ≤ poly.degree + gap) :
    same ((leadingTerm factor (gap + 1) * poly).coeff exponent)
      (if gap ≤ exponent then factor * poly.coeff (exponent - gap) else 0) := by
  have rows := related_rowCoeff (numerical.refl 0)
    (same_slots_leadingTerm_mul numerical factor gap finiteSlots) exponent
  rw [rowCoeff_append, List.length_replicate, rowCoeff_replicate_zero] at rows
  simp only [coeff_eq_rowCoeff]
  by_cases shifted : gap ≤ exponent
  · have inRow : exponent - gap < poly.slots.length := by
      rw [length_slots, size_eq_degree_succ]
      omega
    rw [if_neg (Nat.not_lt.mpr shifted), rowCoeff_map inRow] at rows
    rwa [if_pos shifted]
  · rw [if_pos (Nat.lt_of_not_le shifted)] at rows
    rwa [if_neg shifted]

end Terms

end LongDivision.Dense
