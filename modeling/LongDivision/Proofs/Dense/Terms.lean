import LongDivision.Proofs.Dense.Slots
import LongDivision.Proofs.Term.Lookup

/-! The nonzero slots of a polynomial as a list of terms.
-/

namespace LongDivision.Dense

open Term

variable {α : Type} [Zero α] [BEq α]

/-- The nonzero slots of a row whose last slot is the constant. -/
def rowTerms : (row : List α) → List (Term α)
  | [] => []
  | slot :: lower =>
      if slot == 0 then rowTerms lower else ⟨lower.length, slot⟩ :: rowTerms lower

def nonzeroTerms (poly : Dense α) : List (Term α) :=
  rowTerms poly.slots

theorem exponent_rowTerms {row : List α} {term : Term α} (member : term ∈ rowTerms row) :
    term.exponent < row.length := by
  induction row with
  | nil => contradiction
  | cons slot lower ih =>
      rw [List.length_cons]
      rw [rowTerms] at member
      split at member
      · exact Nat.lt_succ_of_lt (ih member)
      · rcases List.mem_cons.mp member with rfl | later
        · exact Nat.lt_succ_self _
        · exact Nat.lt_succ_of_lt (ih later)

theorem descending_rowTerms (row : List α) : Descending (rowTerms row) := by
  induction row with
  | nil => exact List.Pairwise.nil
  | cons slot lower ih =>
      rw [rowTerms]
      split
      · exact ih
      · exact List.pairwise_cons.mpr ⟨fun member later => exponent_rowTerms later, ih⟩

theorem lookup_rowTerms (zero_beq : ((0 : α) == 0) = true) (row : List α) (exponent : Nat) :
    lookup (rowTerms row) exponent =
      (some (rowCoeff row exponent)).filter fun value => !(value == 0) := by
  induction row with
  | nil =>
      rw [rowTerms, rowCoeff, Option.filter_some, zero_beq]
      rfl
  | cons slot lower ih =>
      rw [rowTerms, rowCoeff]
      by_cases leading : exponent = lower.length
      · have absent : lookup (rowTerms lower) exponent = none := by
          rw [lookup_eq_none_iff]
          intro term member
          have := exponent_rowTerms member
          omega
        rw [if_pos leading]
        cases zero : slot == 0 with
        | true => rw [if_pos rfl, absent, Option.filter_some, zero]; rfl
        | false =>
            rw [if_neg Bool.false_ne_true, lookup_cons, if_pos leading.symm, Option.filter_some,
              zero]
            rfl
      · rw [if_neg leading, ← ih]
        split
        · rfl
        · rw [lookup_cons, if_neg (Ne.symm leading)]

theorem lookup_nonzeroTerms (zero_beq : ((0 : α) == 0) = true) (poly : Dense α) (exponent : Nat) :
    lookup poly.nonzeroTerms exponent =
      (some (poly.coeff exponent)).filter fun value => !(value == 0) := by
  rw [nonzeroTerms, lookup_rowTerms zero_beq, coeff_eq_rowCoeff]

theorem filter_nonzero_eq_iff {left right : α} :
    (some left).filter (fun value => !(value == 0)) =
        (some right).filter (fun value => !(value == 0)) ↔
      left = right ∨ ((left == 0) = true ∧ (right == 0) = true) := by
  have apart (zero : (left == 0) ≠ (right == 0)) : left ≠ right := by
    rintro rfl
    exact zero rfl
  rw [Option.filter_some, Option.filter_some]
  cases leftZero : left == 0 with
  | true =>
      cases rightZero : right == 0 with
      | true => simp
      | false => simp [apart (by simp [leftZero, rightZero])]
  | false =>
      cases rightZero : right == 0 with
      | true => simp [apart (by simp [leftZero, rightZero])]
      | false => simp

theorem nonzeroTerms_eq_iff (zero_beq : ((0 : α) == 0) = true) {left right : Dense α} :
    left.nonzeroTerms = right.nonzeroTerms ↔
      ∀ exponent, left.coeff exponent = right.coeff exponent ∨
        ((left.coeff exponent == 0) = true ∧ (right.coeff exponent == 0) = true) := by
  simp only [← filter_nonzero_eq_iff, ← lookup_nonzeroTerms zero_beq]
  constructor
  · intro same exponent
    rw [same]
  · exact Term.Descending.eq_of_lookup (descending_rowTerms _) (descending_rowTerms _)

/-- Zero slots in front of the leading one are no terms. -/
theorem rowTerms_append_of_zeros {zeros : List α} (allZero : ∀ slot ∈ zeros, (slot == 0) = true)
    (row : List α) : rowTerms (zeros ++ row) = rowTerms row := by
  induction zeros with
  | nil => rfl
  | cons slot zeros ih =>
      rw [List.cons_append, rowTerms, if_pos (allZero slot List.mem_cons_self),
        ih fun other later => allZero other (List.mem_cons_of_mem _ later)]

theorem mem_slots_of_rowTerms {row : List α} {term : Term α} (member : term ∈ rowTerms row) :
    term.coeff ∈ row ∧ (term.coeff == 0) = false := by
  induction row with
  | nil => contradiction
  | cons slot lower ih =>
      rw [rowTerms] at member
      split at member
      · have later := ih member
        exact ⟨List.mem_cons_of_mem _ later.1, later.2⟩
      · rename_i nonzero
        rcases List.mem_cons.mp member with rfl | later
        · exact ⟨List.mem_cons_self, Bool.eq_false_iff.mpr nonzero⟩
        · exact ⟨List.mem_cons_of_mem _ (ih later).1, (ih later).2⟩

theorem rowTerms_ne_nil {row : List α} {slot : α} (member : slot ∈ row)
    (nonzero : (slot == 0) = false) : rowTerms row ≠ [] := by
  induction row with
  | nil => contradiction
  | cons first lower ih =>
      rw [rowTerms]
      split
      · rename_i zero
        rcases List.mem_cons.mp member with rfl | later
        · rw [zero] at nonzero
          contradiction
        · exact ih later
      · exact List.cons_ne_nil _ _

theorem nonzeroTerms_of_isZero {poly : Dense α} (isZero : poly.isZero = true) :
    poly.nonzeroTerms = [] := by
  have empty := rowTerms_append_of_zeros (List.all_eq_true.mp isZero) []
  rwa [List.append_nil] at empty

theorem nonzeroTerms_ne_nil {poly : Dense α} (nonzero : poly.isZero = false) :
    poly.nonzeroTerms ≠ [] := by
  obtain ⟨slot, member, present⟩ := List.all_eq_false.mp nonzero
  exact rowTerms_ne_nil member (Bool.eq_false_iff.mpr present)

theorem nonzeroTerms_eq_nil_iff {poly : Dense α} :
    poly.nonzeroTerms = [] ↔ poly.isZero = true := by
  refine ⟨fun none => ?_, nonzeroTerms_of_isZero⟩
  by_contra nonzero
  exact nonzeroTerms_ne_nil (Bool.eq_false_iff.mpr nonzero) none

example : (⟨0, [3, 0, 1]⟩ : Dense Int).nonzeroTerms = [⟨2, 3⟩, ⟨0, 1⟩] := by decide

end LongDivision.Dense
