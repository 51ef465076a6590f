import LongDivision.Proofs.Dense.Polynomial
import Mathlib.Algebra.Polynomial.Coeff
import Mathlib.Data.List.GetD

/-! The slots of a product, with the order in which their partial products are added. A slot gets
one of them with each row that reaches it, and rows are added from the leading slot of the left
factor on.
-/

namespace LongDivision.Dense

variable {α : Type}

/-- The positions in the left row whose slots are multiplied, in this order, into a slot of the
product: each of them leaves a position that the right row has. -/
def contributors (left right : List α) (position : Nat) : List Nat :=
  (List.range left.length).filter fun index =>
    index ≤ position ∧ position - index < right.length

section Contributors

theorem contributors_nil (right : List α) (position : Nat) :
    contributors [] right position = [] := rfl

theorem contributors_cons_zero (factor : α) (left right : List α) :
    contributors (factor :: left) right 0 = if 0 < right.length then [0] else [] := by
  have later : (fun index => decide (index ≤ 0 ∧ 0 - index < right.length)) ∘ Nat.succ =
      fun _ => false := by
    funext index
    simp
  rw [contributors, List.length_cons, List.range_succ_eq_map, List.filter_cons, List.filter_map,
    later, List.filter_false, List.map_nil]
  simp

/-- The first row reaches a slot directly, later rows as they reach the slot before it without the
first row. -/
theorem contributors_cons_succ (factor : α) (left right : List α) (position : Nat) :
    contributors (factor :: left) right (position + 1) =
      (if position + 1 < right.length then [0] else []) ++
        (contributors left right position).map Nat.succ := by
  have later : (fun index => decide (index ≤ position + 1 ∧ position + 1 - index < right.length)) ∘
      Nat.succ = fun index => decide (index ≤ position ∧ position - index < right.length) := by
    funext index
    simp
  rw [contributors, List.length_cons, List.range_succ_eq_map, List.filter_cons, List.filter_map,
    later, contributors]
  by_cases reached : position + 1 < right.length
  · simp [reached]
  · simp [reached]

end Contributors

variable [Zero α] [Mul α]

/-- The partial products of a slot, in the order in which they are added. -/
def contributions (left right : List α) (position : Nat) : List α :=
  (contributors left right position).map fun index =>
    left.getD index 0 * right.getD (position - index) 0

theorem contributions_cons_zero (factor : α) (left right : List α) :
    contributions (factor :: left) right 0 =
      if 0 < right.length then [factor * right.getD 0 0] else [] := by
  rw [contributions, contributors_cons_zero]
  split <;> rfl

theorem contributions_cons_succ (factor : α) (left right : List α) (position : Nat) :
    contributions (factor :: left) right (position + 1) =
      (if position + 1 < right.length then [factor * right.getD (position + 1) 0] else []) ++
        contributions left right position := by
  have shifted : (fun index => (factor :: left).getD index 0 * right.getD (position + 1 - index) 0) ∘
      Nat.succ = fun index => left.getD index 0 * right.getD (position - index) 0 := by
    funext index
    simp
  rw [contributions, contributors_cons_succ, List.map_append, List.map_map, shifted, contributions]
  split <;> rfl

section Rows

variable [Add α]

theorem getElem?_addScaled (factor : α) (buffer row : List α) (position : Nat) :
    (addScaled factor buffer row)[position]? = buffer[position]?.map fun slot =>
      if position < row.length then slot + factor * row.getD position 0 else slot := by
  induction buffer generalizing row position with
  | nil => cases row <;> rfl
  | cons slot buffer ih =>
      cases row with
      | nil => simp [addScaled]
      | cons entry row =>
          cases position with
          | zero => simp [addScaled]
          | succ position => simp [addScaled, ih]

/-- Each slot starts from what the buffer holds and ends with all its partial products: its first
row is the one that is added now, and its other rows are those of the slot before it. -/
theorem getElem?_addProduct (buffer left right : List α) (position : Nat) :
    (addProduct buffer left right)[position]? = buffer[position]?.map fun start =>
      (contributions left right position).foldl (· + ·) start := by
  induction left generalizing buffer position with
  | nil => simp [addProduct, contributions, contributors_nil]
  | cons factor left ih =>
      have scaled := getElem?_addScaled factor buffer right position
      rw [addProduct]
      cases added : addScaled factor buffer right with
      | nil =>
          rw [added, List.getElem?_nil, eq_comm, Option.map_eq_none_iff] at scaled
          rw [scaled]
          rfl
      | cons slot rest =>
          rw [added] at scaled
          cases position with
          | zero =>
              rw [List.getElem?_cons_zero] at scaled ⊢
              rw [scaled, contributions_cons_zero]
              congr 1
              funext start
              split <;> rfl
          | succ position =>
              rw [List.getElem?_cons_succ] at scaled ⊢
              rw [ih, scaled, Option.map_map, contributions_cons_succ]
              congr 1
              funext start
              rw [Function.comp_apply, List.foldl_append]
              split <;> rfl

theorem slots_mul_eq_map (left right : Dense α) :
    (left * right).slots = (List.range (left.size + right.size - 1)).map fun position =>
      (contributions left.slots right.slots position).foldl (· + ·) 0 := by
  apply List.ext_getElem?
  intro position
  rw [slots_mul, getElem?_addProduct, List.getElem?_replicate, List.getElem?_map]
  by_cases within : position < left.size + right.size - 1
  · rw [if_pos within, List.getElem?_range within]
    rfl
  · rw [if_neg within, List.getElem?_eq_none (by rw [List.length_range]; omega)]
    rfl

end Rows

/-- A product has one slot less than its factors together, and each is a sum from left to right that
starts at zero, in whatever arithmetic. In exact arithmetic the coefficient of a power is the sum
over all pairs of powers that add up to it. -/
theorem mul_convolution {R : Type} [Add α] [Semiring R] (left right : Dense α)
    (exactLeft exactRight : Dense R) :
    (left * right).size = left.size + right.size - 1 ∧
    (left * right).slots = (List.range (left.size + right.size - 1)).map (fun position =>
      (contributions left.slots right.slots position).foldl (· + ·) 0) ∧
    ∀ exponent, (exactLeft * exactRight).coeff exponent =
      ∑ powers ∈ Finset.HasAntidiagonal.antidiagonal exponent,
        exactLeft.coeff powers.1 * exactRight.coeff powers.2 := by
  refine ⟨size_mul left right, slots_mul_eq_map left right, fun exponent => ?_⟩
  rw [← coeff_toPolynomial, toPolynomial_mul, Polynomial.coeff_mul]
  simp only [coeff_toPolynomial]

end LongDivision.Dense
