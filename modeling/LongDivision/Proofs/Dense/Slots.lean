import LongDivision.Dense

/-! Rows of slots read by powers of `x`, and what addition does to them. Nothing here asks
anything of the coefficient arithmetic.
-/

namespace LongDivision.Dense

variable {α : Type}

section Rows

variable [Zero α]

/-- The coefficient of a power of `x` in a row whose last slot is the constant. -/
def rowCoeff : (row : List α) → (exponent : Nat) → α
  | [], _ => 0
  | slot :: lower, exponent => if exponent = lower.length then slot else rowCoeff lower exponent

theorem rowCoeff_of_length_le {row : List α} {exponent : Nat} (above : row.length ≤ exponent) :
    rowCoeff row exponent = 0 := by
  induction row with
  | nil => rfl
  | cons slot lower ih =>
      simp only [List.length_cons] at above
      rw [rowCoeff, if_neg (by omega), ih (by omega)]

theorem rowCoeff_eq_getElem {row : List α} {exponent : Nat} (within : exponent < row.length) :
    rowCoeff row exponent = row[row.length - 1 - exponent] := by
  induction row with
  | nil => simp at within
  | cons slot lower ih =>
      simp only [List.length_cons] at within
      by_cases leading : exponent = lower.length
      · simp [rowCoeff, leading]
      · have below : exponent < lower.length := by omega
        have index : lower.length + 1 - 1 - exponent = lower.length - 1 - exponent + 1 := by omega
        simp only [rowCoeff, if_neg leading, ih below, List.length_cons, index,
          List.getElem_cons_succ]

theorem exists_rowCoeff_eq {row : List α} {slot : α} (member : slot ∈ row) :
    ∃ exponent, rowCoeff row exponent = slot := by
  obtain ⟨index, within, rfl⟩ := List.getElem_of_mem member
  refine ⟨row.length - 1 - index, ?_⟩
  have position : row.length - 1 - (row.length - 1 - index) = index := by omega
  rw [rowCoeff_eq_getElem (by omega)]
  simp only [position]

theorem coeff_eq_rowCoeff (poly : Dense α) (exponent : Nat) :
    poly.coeff exponent = rowCoeff poly.slots exponent := by
  by_cases within : exponent ≤ poly.degree
  · rw [coeff, dif_pos within, rowCoeff_eq_getElem (by rw [length_slots, size_eq_degree_succ]; omega)]
    rfl
  · rw [coeff, dif_neg within, rowCoeff_of_length_le]
    rw [length_slots, size_eq_degree_succ]
    omega

theorem coeff_of_size_le {poly : Dense α} {exponent : Nat} (above : poly.size ≤ exponent) :
    poly.coeff exponent = 0 := by
  rw [size_eq_degree_succ] at above
  rw [coeff, dif_neg (by omega)]

theorem coeff_degree (poly : Dense α) : poly.coeff poly.degree = poly.lead := by
  rw [coeff_eq_rowCoeff, slots, rowCoeff, degree, if_pos rfl]

/-- The slots counted from the leading one are the coefficients counted from the highest power. -/
theorem getD_slots {poly : Dense α} {position : Nat} (within : position ≤ poly.degree) :
    poly.slots.getD position 0 = poly.coeff (poly.degree - position) := by
  have inRow : position < poly.slots.length := by
    rw [length_slots, size_eq_degree_succ]
    omega
  have index : poly.degree - (poly.degree - position) = position := by omega
  rw [coeff, dif_pos (Nat.sub_le _ _), List.getD_eq_getElem?_getD,
    List.getElem?_eq_getElem inRow, Option.getD_some]
  simp only [index]

theorem rowCoeff_append (upper lower : List α) (exponent : Nat) :
    rowCoeff (upper ++ lower) exponent =
      if exponent < lower.length then rowCoeff lower exponent
      else rowCoeff upper (exponent - lower.length) := by
  induction upper with
  | nil =>
      split
      · rfl
      · exact rowCoeff_of_length_le (by simp only [List.nil_append]; omega)
  | cons slot upper ih =>
      simp only [List.cons_append, rowCoeff, List.length_append, ih]
      by_cases within : exponent < lower.length
      · rw [if_neg (by omega), if_pos within, if_pos within]
      · rw [if_neg within, if_neg within]
        congr 1
        simp only [eq_iff_iff]
        omega

theorem rowCoeff_zipWith (operation : α → α → α) {left right : List α} {exponent : Nat}
    (same : left.length = right.length) (within : exponent < left.length) :
    rowCoeff (List.zipWith operation left right) exponent =
      operation (rowCoeff left exponent) (rowCoeff right exponent) := by
  induction left generalizing right with
  | nil => simp at within
  | cons slot left ih =>
      cases right with
      | nil => simp at same
      | cons entry right =>
          simp only [List.length_cons, Nat.add_right_cancel_iff] at same within
          simp only [List.zipWith_cons_cons, rowCoeff, List.length_zipWith, same, Nat.min_self]
          split
          · rfl
          · exact ih same (by omega)

theorem rowCoeff_map {operation : α → α} {row : List α} {exponent : Nat}
    (within : exponent < row.length) :
    rowCoeff (row.map operation) exponent = operation (rowCoeff row exponent) := by
  induction row with
  | nil => simp at within
  | cons slot lower ih =>
      simp only [List.length_cons] at within
      simp only [List.map_cons, rowCoeff, List.length_map]
      split
      · rfl
      · exact ih (by omega)

theorem rowCoeff_replicate_zero (size exponent : Nat) :
    rowCoeff (List.replicate size (0 : α)) exponent = 0 := by
  induction size with
  | zero => rfl
  | succ size ih =>
      rw [List.replicate_succ, rowCoeff, ih, ite_self]

/-- A row that lists the values of all powers up to a degree, highest power first. -/
theorem coeff_ofSlots_range (value : Nat → α) (degree exponent : Nat) :
    (ofSlots ((List.range (degree + 1)).map fun slot => value (degree - slot))).coeff exponent =
      if exponent ≤ degree then value exponent else 0 := by
  have length : ((List.range (degree + 1)).map fun slot => value (degree - slot)).length =
      degree + 1 := by rw [List.length_map, List.length_range]
  rw [coeff_eq_rowCoeff, slots_ofSlots (List.ne_nil_of_length_eq_add_one length)]
  split
  · have slot : degree - (degree + 1 - 1 - exponent) = exponent := by omega
    rw [rowCoeff_eq_getElem (by omega)]
    simp only [List.getElem_map, List.getElem_range, List.length_map, List.length_range, slot]
  · exact rowCoeff_of_length_le (by omega)

theorem isZero_iff [BEq α] (zero_beq : ((0 : α) == 0) = true) {poly : Dense α} :
    poly.isZero = true ↔ ∀ exponent, (poly.coeff exponent == 0) = true := by
  rw [isZero, List.all_eq_true]
  constructor
  · intro zeros exponent
    rw [coeff]
    split
    · exact zeros _ (List.getElem_mem _)
    · exact zero_beq
  · intro zeros slot member
    obtain ⟨exponent, same⟩ := exists_rowCoeff_eq member
    rw [← same, ← coeff_eq_rowCoeff]
    exact zeros exponent

end Rows

section Addition

theorem length_addAligned [Add α] {buffer row : List α} (fits : row.length ≤ buffer.length) :
    (addAligned buffer row).length = buffer.length := by
  simp only [addAligned, List.length_append, List.length_take, List.length_zipWith,
    List.length_drop]
  omega

variable [Zero α]

private theorem left_fits (left right : Dense α) :
    left.slots.length ≤ (List.replicate (max left.size right.size) (0 : α)).length := by
  rw [List.length_replicate, length_slots]
  exact Nat.le_max_left _ _

variable [Add α]

theorem rowCoeff_addAligned {buffer row : List α} (fits : row.length ≤ buffer.length)
    (exponent : Nat) :
    rowCoeff (addAligned buffer row) exponent =
      if exponent < row.length then rowCoeff buffer exponent + rowCoeff row exponent
      else rowCoeff buffer exponent := by
  have dropped : (buffer.drop (buffer.length - row.length)).length = row.length := by
    rw [List.length_drop]
    omega
  have parts := rowCoeff_append (buffer.take (buffer.length - row.length))
    (buffer.drop (buffer.length - row.length)) exponent
  rw [List.take_append_drop, dropped] at parts
  simp only [addAligned, rowCoeff_append, List.length_zipWith, dropped, Nat.min_self]
  by_cases within : exponent < row.length
  · simp only [if_pos within] at parts ⊢
    rw [rowCoeff_zipWith _ dropped (by rw [dropped]; exact within), parts]
  · simp only [if_neg within] at parts ⊢
    exact parts.symm

private theorem length_halfCombined (left right : Dense α) :
    (addAligned (List.replicate (max left.size right.size) 0) left.slots).length =
      max left.size right.size := by
  rw [length_addAligned (left_fits left right), List.length_replicate]

variable [Mul α]

private theorem right_fits (sign : α) (left right : Dense α) :
    (right.slots.map (sign * ·)).length ≤
      (addAligned (List.replicate (max left.size right.size) 0) left.slots).length := by
  rw [length_halfCombined, List.length_map, length_slots]
  exact Nat.le_max_right _ _

theorem slots_combine (sign : α) (left right : Dense α) :
    (combine sign left right).slots =
      addAligned (addAligned (List.replicate (max left.size right.size) 0) left.slots)
        (right.slots.map (sign * ·)) := by
  apply slots_ofSlots
  apply List.ne_nil_of_length_pos
  rw [length_addAligned (right_fits sign left right), length_halfCombined, size_eq_degree_succ]
  omega

theorem size_combine (sign : α) (left right : Dense α) :
    (combine sign left right).size = max left.size right.size := by
  rw [← length_slots, slots_combine, length_addAligned (right_fits sign left right),
    length_halfCombined]

/-- What one power of a combination is made of: a slot that is missing on one side adds nothing,
not even a zero. -/
theorem coeff_combine (sign : α) (left right : Dense α) (exponent : Nat) :
    (combine sign left right).coeff exponent =
      (let started := if exponent < left.size then 0 + left.coeff exponent else 0
      if exponent < right.size then started + sign * right.coeff exponent else started) := by
  rw [coeff_eq_rowCoeff, slots_combine, rowCoeff_addAligned (right_fits sign left right),
    rowCoeff_addAligned (left_fits left right), rowCoeff_replicate_zero, List.length_map,
    length_slots, length_slots, coeff_eq_rowCoeff left]
  by_cases within : exponent < right.size
  · rw [if_pos within, rowCoeff_map (by rw [length_slots]; exact within), ← coeff_eq_rowCoeff right,
      if_pos within]
  · rw [if_neg within, if_neg within]

@[simp]
theorem size_add [One α] (left right : Dense α) :
    (left + right).size = max left.size right.size :=
  size_combine 1 left right

@[simp]
theorem size_sub [One α] [Neg α] (left right : Dense α) :
    (left - right).size = max left.size right.size :=
  size_combine (-1) left right

end Addition

section Products

variable [Add α] [Mul α]

@[simp]
theorem length_addScaled (factor : α) (buffer row : List α) :
    (addScaled factor buffer row).length = buffer.length := by
  induction buffer generalizing row with
  | nil => cases row <;> rfl
  | cons slot buffer ih =>
      cases row with
      | nil => rfl
      | cons entry row => simp only [addScaled, List.length_cons, ih]

@[simp]
theorem length_addProduct (buffer left right : List α) :
    (addProduct buffer left right).length = buffer.length := by
  induction left generalizing buffer with
  | nil => rfl
  | cons factor left ih =>
      have length := length_addScaled factor buffer right
      unfold addProduct
      split
      · rename_i empty
        rw [← length, empty]
      · rename_i slot rest nonempty
        rw [← length, nonempty, List.length_cons, List.length_cons, ih]

variable [Zero α]

theorem addScaled_replicate_zero (factor : α) (row : List α) (count : Nat) :
    addScaled factor (List.replicate (row.length + count) 0) row =
      row.map (fun entry => 0 + factor * entry) ++ List.replicate count 0 := by
  induction row with
  | nil =>
      rw [List.length_nil, Nat.zero_add]
      cases count <;> rfl
  | cons entry row ih =>
      rw [List.length_cons, Nat.add_right_comm, List.replicate_succ, addScaled, ih]
      rfl

theorem slots_mul (left right : Dense α) :
    (left * right).slots =
      addProduct (List.replicate (left.size + right.size - 1) 0) left.slots right.slots := by
  apply slots_ofSlots
  apply List.ne_nil_of_length_pos
  rw [length_addProduct, List.length_replicate, size_eq_degree_succ, size_eq_degree_succ]
  omega

@[simp]
theorem size_mul (left right : Dense α) :
    (left * right).size = left.size + right.size - 1 := by
  rw [← length_slots, slots_mul, length_addProduct, List.length_replicate]

end Products

theorem size_scale [Mul α] (poly : Dense α) (factor : α) :
    (poly.scale factor).size = poly.size := by
  rw [size, scale, List.length_map, size]

section Shapes

variable [Zero α]

theorem size_leadingTerm {coeff : α} {size : Nat} (positive : 0 < size) :
    (leadingTerm coeff size).size = size := by
  simp only [leadingTerm, Dense.size, List.length_replicate]
  omega

theorem coeff_leadingTerm (coeff : α) (gap exponent : Nat) :
    (leadingTerm coeff (gap + 1)).coeff exponent = if exponent = gap then coeff else 0 := by
  have term : (leadingTerm coeff (gap + 1)).slots = coeff :: List.replicate gap 0 := rfl
  rw [coeff_eq_rowCoeff, term, rowCoeff, List.length_replicate, rowCoeff_replicate_zero]

theorem isZero_zero [BEq α] (zero_beq : ((0 : α) == 0) = true) :
    (zero : Dense α).isZero = true := by
  simp only [isZero, slots, zero, List.all_cons, List.all_nil, zero_beq, Bool.and_self]

theorem degree_dropLead (poly : Dense α) : poly.dropLead.degree = poly.degree - 1 := by
  obtain ⟨lead, lower⟩ := poly
  cases lower with
  | nil => rfl
  | cons next lower => simp [dropLead, ofSlots, degree]

theorem coeff_dropLead {poly : Dense α} {exponent : Nat} (below : exponent < poly.degree) :
    poly.dropLead.coeff exponent = poly.coeff exponent := by
  obtain ⟨lead, lower⟩ := poly
  have row : lower ≠ [] := List.ne_nil_of_length_pos (Nat.zero_lt_of_lt below)
  rw [coeff_eq_rowCoeff, coeff_eq_rowCoeff, dropLead, slots_ofSlots row]
  exact (if_neg (Nat.ne_of_lt below)).symm

theorem dropLead_of_degree_eq_zero {poly : Dense α} (constant : poly.degree = 0) :
    poly.dropLead = zero := by
  rw [dropLead, List.eq_nil_of_length_eq_zero constant, ofSlots]

end Shapes

end LongDivision.Dense
