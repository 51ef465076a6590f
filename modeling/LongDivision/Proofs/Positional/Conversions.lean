import LongDivision.Proofs.Positional.Arithmetic
import LongDivision.Proofs.Term.Coefficients
import LongDivision.Proofs.TermMap.Forms
import LongDivision.Proofs.TermSum.Forms

/-! Terms written into a row by position, the distance of their power from the highest one.
-/

namespace LongDivision.Positional

open Term

variable {α : Type}

/-- Takes each term into the slot of its power. -/
def place (operation : α → α → α) (degree : Nat) :
    (terms : List (Term α)) → (buffer : List α) → Except Stop (List α)
  | [], buffer => .ok buffer
  | term :: terms, buffer => do
      let position ← difference degree term.exponent
      let changed ← change (operation · term.coeff) position buffer
      place operation degree terms changed

section Definitions

variable [Zero α]

def ofTermSum [Add α] (sum : TermSum α) : Except Stop (List α) :=
  match sum.degree? with
  | none => .ok [0]
  | some degree => do
      let row ← place (· + ·) degree sum.terms (List.replicate (degree + 1) 0)
      ofSlots row

def ofTermMap [BEq α] (map : TermMap α) : Except Stop (List α) :=
  match map.degree? with
  | none => .ok [0]
  | some degree => do
      let row ← place (fun _ coeff => coeff) degree map.terms (List.replicate (degree + 1) 0)
      ofSlots row

end Definitions

/-- The row of a value for each power, from the highest one down. -/
def descend (degree : Nat) (value : Nat → α) : List α :=
  (List.range (degree + 1)).map fun slot => value (degree - slot)

theorem change_descend (operation : α → α) {degree exponent : Nat} (value : Nat → α)
    (within : exponent ≤ degree) :
    change operation (degree - exponent) (descend degree value) =
      .ok (descend degree fun power =>
        if exponent = power then operation (value power) else value power) := by
  have inRow : degree - exponent < (descend degree value).length := by
    rw [descend, List.length_map, List.length_range]
    omega
  rw [change_of_lt operation inRow]
  congr 1
  apply List.ext_getElem
  · simp only [descend, List.length_modify, List.length_map]
  · intro slot _ inside
    have bound : slot ≤ degree := by simpa [descend, Nat.lt_succ_iff] using inside
    have here : degree - exponent = slot ↔ exponent = degree - slot := by omega
    simp only [List.getElem_modify, descend, List.getElem_map, List.getElem_range, here]

/-- Each slot holds in the end what the terms of its power make of it, one after the other. -/
theorem place_descend (operation : α → α → α) {degree : Nat} {terms : List (Term α)}
    (value : Nat → α) (within : ∀ term ∈ terms, term.exponent ≤ degree) :
    place operation degree terms (descend degree value) =
      .ok (descend degree fun power =>
        terms.foldl (fun slot term => if term.exponent = power then operation slot term.coeff
          else slot) (value power)) := by
  induction terms generalizing value with
  | nil => rfl
  | cons term terms ih =>
      have reached := within term List.mem_cons_self
      rw [place, difference_of_le reached, ok_bind, change_descend _ value reached, ok_bind,
        ih _ fun later member => within later (List.mem_cons_of_mem _ member)]
      rfl

theorem replicate_eq_descend (degree : Nat) (slot : α) :
    List.replicate (degree + 1) slot = descend degree fun _ => slot := by
  rw [descend, List.map_const', List.length_range]

variable [Zero α]

theorem ofTermSum_eq [Add α] (sum : TermSum α) : ofTermSum sum = .ok sum.toDense.slots := by
  cases leading : sum.degree? with
  | none =>
      rw [ofTermSum, TermSum.toDense, leading]
      rfl
  | some degree =>
      have within := (TermSum.degree?_eq_some_iff.mp leading).2
      have placed := place_descend (· + ·) (fun _ => 0) within
      rw [ofTermSum, TermSum.toDense, leading]
      simp only [replicate_eq_descend, placed, ok_bind, ofSlots_eq]
      rfl

/-- The powers of a map are distinct, so that no slot is written twice. -/
theorem ofTermMap_eq [BEq α] (map : TermMap α) : ofTermMap map = .ok map.toDense.slots := by
  cases leading : map.degree? with
  | none =>
      rw [ofTermMap, TermMap.toDense, leading]
      rfl
  | some degree =>
      have within : ∀ term ∈ map.terms, term.exponent ≤ degree := fun term member =>
        TermMap.exponent_le_degree leading (map.distinct_terms.lookup_of_mem member)
      have placed := place_descend (fun _ coeff => coeff) (fun _ => 0) within
      have written (power : Nat) : map.terms.foldl (fun slot term =>
          if term.exponent = power then term.coeff else slot) 0 = (map.get? power).getD 0 := by
        rw [foldl_coefficients (fun _ coeff => coeff), coefficients_of_distinct map.distinct_terms]
        change _ = (lookup map.terms power).getD 0
        cases lookup map.terms power with
        | none => rfl
        | some coeff => rfl
      simp only [written] at placed
      rw [ofTermMap, TermMap.toDense, leading]
      simp only [replicate_eq_descend, placed, ok_bind, ofSlots_eq]
      rfl

end LongDivision.Positional
