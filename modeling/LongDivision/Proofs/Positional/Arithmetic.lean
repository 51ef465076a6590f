import LongDivision.Dense.Text
import LongDivision.Proofs.Dense.Slots
import LongDivision.Proofs.Positional.Rows

/-! The operations of dense polynomials as loops over positions. They never stop on the slots of a
polynomial, and what they leave are the slots that the operations without positions give.
-/

namespace LongDivision.Positional

open LongDivision.Dense

variable {α : Type}

section Definitions

def degree (row : List α) : Except Stop Nat :=
  difference row.length 1

def lead (row : List α) : Except Stop α :=
  slotAt row 0

variable [Zero α]

def coeff (row : List α) (exponent : Nat) : Except Stop α := do
  let highest ← degree row
  if highest < exponent then .ok 0
  else
    let position ← difference highest exponent
    slotAt row position

def ofSlots (row : List α) : Except Stop (List α) :=
  polynomial (if row.isEmpty then [0] else row)

def leadingTerm (coeff : α) (size : Nat) : Except Stop (List α) := do
  let row ← change (fun _ => coeff) 0 (List.replicate (max size 1) 0)
  polynomial row

def dropLead (row : List α) : Except Stop (List α) := do
  let dropped ← if 1 < row.length then remove 0 row else change (fun _ => 0) 0 row
  polynomial dropped

section Sums

variable [Add α] [Mul α]

def scale (row : List α) (factor : α) : Except Stop (List α) :=
  polynomial (row.map (· * factor))

def combine (sign : α) (left right : List α) : Except Stop (List α) := do
  let size := max left.length right.length
  let leftGap ← difference size left.length
  let started ← changeEach (· + ·) leftGap left (List.replicate size 0)
  let rightGap ← difference size right.length
  let combined ← changeEach (fun slot entry => slot + sign * entry) rightGap right started
  polynomial combined

/-- Adds the product of two rows to a buffer, from a position on. -/
def addProduct (right : List α) :
    (position : Nat) → (left buffer : List α) → Except Stop (List α)
  | _, [], buffer => .ok buffer
  | position, factor :: left, buffer => do
      let added ← changeEach (fun slot entry => slot + factor * entry) position right buffer
      addProduct right (position + 1) left added

def mul (left right : List α) : Except Stop (List α) := do
  let size ← difference (left.length + right.length) 1
  let product ← addProduct right 0 left (List.replicate size 0)
  polynomial product

end Sums

section Text

variable [BEq α] [Written α]

def termTexts (degree : Nat) :
    (first : Bool) → (position : Nat) → (row : List α) → Except Stop (List String)
  | _, _, [] => .ok []
  | first, position, slot :: row =>
      if slot == 0 then termTexts degree first (position + 1) row
      else do
        let exponent ← difference degree position
        let coeff := if first then Written.plain slot else Written.signed slot
        let later ← termTexts degree false (position + 1) row
        .ok ((coeff ++ powerText exponent) :: later)

def text (row : List α) : Except Stop String := do
  let highest ← degree row
  let texts ← termTexts highest true 0 row
  .ok (String.join texts)

end Text

end Definitions

theorem polynomial_slots (poly : Dense α) : polynomial poly.slots = .ok poly.slots := rfl

theorem degree_slots (poly : Dense α) : degree poly.slots = .ok poly.degree :=
  difference_of_le (Nat.succ_pos _)

theorem lead_slots (poly : Dense α) : lead poly.slots = .ok poly.lead := rfl

section Zero

variable [Zero α]

theorem coeff_slots (poly : Dense α) (exponent : Nat) :
    coeff poly.slots exponent = .ok (poly.coeff exponent) := by
  rw [coeff, degree_slots, ok_bind, Dense.coeff]
  by_cases within : exponent ≤ poly.degree
  · rw [if_neg (Nat.not_lt.mpr within), dif_pos within, difference_of_le within, ok_bind,
      slotAt_of_lt]
  · rw [if_pos (Nat.lt_of_not_le within), dif_neg within]

theorem ofSlots_eq (row : List α) : ofSlots row = .ok (Dense.ofSlots row).slots := by
  cases row with
  | nil => rfl
  | cons slot row => rfl

theorem leadingTerm_eq (coeff : α) (size : Nat) :
    leadingTerm coeff size = .ok (Dense.leadingTerm coeff size).slots := by
  have zeros : List.replicate (max size 1) (0 : α) = 0 :: List.replicate (size - 1) 0 := by
    rw [← List.replicate_succ]
    congr 1
    omega
  rw [leadingTerm, zeros]
  rfl

theorem dropLead_slots (poly : Dense α) : dropLead poly.slots = .ok poly.dropLead.slots := by
  obtain ⟨slot, lower⟩ := poly
  cases lower with
  | nil => rfl
  | cons next lower =>
      have several : 1 < (⟨slot, next :: lower⟩ : Dense α).slots.length := by simp [slots]
      rw [dropLead, if_pos several]
      rfl

variable [BEq α] [Written α]

/-- The powers count down to the constant, whose position is the last one of the row. -/
theorem termTexts_eq {highest position : Nat} (first : Bool) {row : List α}
    (size : highest + 1 = position + row.length) :
    termTexts highest first position row = .ok (Dense.termTexts first row) := by
  induction row generalizing first position with
  | nil => rfl
  | cons slot row ih =>
      rw [List.length_cons] at size
      have power : highest - position = row.length := by omega
      have later (first : Bool) := @ih (position + 1) first (by omega)
      rw [termTexts, Dense.termTexts]
      split
      · exact later first
      · rw [difference_of_le (by omega), power, ok_bind, later false, ok_bind]

theorem text_slots (poly : Dense α) : text poly.slots = .ok poly.text := by
  have size : poly.degree + 1 = 0 + poly.slots.length := by
    rw [length_slots, size_eq_degree_succ, Nat.zero_add]
  rw [text, degree_slots, ok_bind, termTexts_eq true size]
  rfl

end Zero

theorem scale_slots [Mul α] (poly : Dense α) (factor : α) :
    scale poly.slots factor = .ok (poly.scale factor).slots := rfl

section Rows

variable [Add α]

theorem changeEach_eq_addAligned (sign : α → α) {size : Nat} {buffer row : List α}
    (length : buffer.length = size) (fits : row.length ≤ size) :
    changeEach (fun slot entry => slot + sign entry) (size - row.length) row buffer =
      .ok (addAligned buffer (row.map sign)) := by
  subst length
  rw [changeEach_aligned _ fits, addAligned, List.length_map, List.zipWith_map_right]

variable [Mul α]

theorem addScaled_eq (factor : α) (buffer row : List α) :
    addScaled factor buffer row =
      List.zipWith (fun slot entry => slot + factor * entry) buffer row ++
        buffer.drop row.length := by
  induction buffer generalizing row with
  | nil => cases row <;> rfl
  | cons slot buffer ih =>
      cases row with
      | nil => rfl
      | cons entry row => rw [addScaled, ih]; rfl

/-- The rows of partial products move on by one slot each, so that the slot they leave behind joins
the front and is not reached again. -/
theorem addProduct_append {right : List α} (nonempty : right ≠ []) (front : List α)
    {left buffer : List α} (fits : left.length + right.length ≤ buffer.length + 1) :
    addProduct right front.length left (front ++ buffer) =
      .ok (front ++ Dense.addProduct buffer left right) := by
  induction left generalizing front buffer with
  | nil => rfl
  | cons factor left ih =>
      rw [List.length_cons] at fits
      have positive := List.length_pos_iff.mpr nonempty
      have added := changeEach_append (fun slot entry => slot + factor * entry) front
        (show right.length ≤ buffer.length by omega)
      have length := length_addScaled factor buffer right
      rw [← addScaled_eq] at added
      rw [addProduct, added, ok_bind, Dense.addProduct]
      cases scaled : addScaled factor buffer right with
      | nil =>
          rw [scaled, List.length_nil] at length
          omega
      | cons slot rest =>
          rw [scaled, List.length_cons] at length
          have later := ih (front ++ [slot]) (show left.length + right.length ≤ rest.length + 1 by
            omega)
          rw [List.length_append, List.length_singleton, List.append_assoc, List.append_assoc]
            at later
          exact later

end Rows

variable [Zero α] [Add α] [Mul α]

theorem combine_slots (sign : α) (left right : Dense α) :
    combine sign left.slots right.slots = .ok (Dense.combine sign left right).slots := by
  have leftFits := Nat.le_max_left left.slots.length right.slots.length
  have rightFits := Nat.le_max_right left.slots.length right.slots.length
  have zeros : (List.replicate (max left.slots.length right.slots.length) (0 : α)).length =
      max left.slots.length right.slots.length := List.length_replicate
  have length := length_addAligned (Nat.le_trans leftFits (Nat.le_of_eq zeros.symm))
  have started := changeEach_eq_addAligned id zeros leftFits
  have combined := changeEach_eq_addAligned (sign * ·) (length.trans zeros) rightFits
  simp only [id, List.map_id_fun] at started
  rw [combine, difference_of_le leftFits, ok_bind, started, ok_bind, difference_of_le rightFits,
    ok_bind, combined, ok_bind]
  rw [length_slots, length_slots, ← slots_combine, polynomial_slots]

theorem mul_slots (left right : Dense α) :
    mul left.slots right.slots = .ok (left * right).slots := by
  have nonempty : right.slots ≠ [] := List.cons_ne_nil _ _
  have positive : 1 ≤ left.slots.length + right.slots.length := by
    rw [length_slots, size_eq_degree_succ]
    omega
  have product := addProduct_append nonempty []
    (show left.slots.length + right.slots.length ≤
      (List.replicate (left.slots.length + right.slots.length - 1) (0 : α)).length + 1 by
        rw [List.length_replicate]
        omega)
  rw [mul, difference_of_le positive, ok_bind]
  simp only [List.nil_append, List.length_nil] at product
  rw [product, ok_bind, length_slots, length_slots, ← slots_mul, polynomial_slots]

end LongDivision.Positional
