import LongDivision.Dense.Division
import LongDivision.Proofs.Dense.Slots
import Mathlib.Data.List.Forall2

/-! One computation with two kinds of coefficients: what the operations on coefficients respect, the
operations on rows of them respect too.
-/

namespace LongDivision

variable {α β : Type}

/-- A relation between coefficients that all operations respect. -/
structure Respected [Zero α] [One α] [Neg α] [Add α] [Mul α] [Div α] [Zero β] [One β] [Neg β]
    [Add β] [Mul β] [Div β] (related : α → β → Prop) : Prop where
  zero : related 0 0
  one : related 1 1
  neg_one : related (-1) (-1)
  add {left right : α} {left' right' : β} (lefts : related left left')
    (rights : related right right') : related (left + right) (left' + right')
  mul {left right : α} {left' right' : β} (lefts : related left left')
    (rights : related right right') : related (left * right) (left' * right')
  div {left right : α} {left' right' : β} (lefts : related left left')
    (rights : related right right') : related (left / right) (left' / right')

namespace Dense

/-- Polynomials of equal size whose slots are related one by one. -/
def Related (related : α → β → Prop) (left : Dense α) (right : Dense β) : Prop :=
  List.Forall₂ related left.slots right.slots

section Shapes

variable {related : α → β → Prop} {left : Dense α} {right : Dense β}

theorem Related.degree_eq (relation : Related related left right) : left.degree = right.degree :=
  Nat.succ.inj relation.length_eq

theorem Related.size_eq (relation : Related related left right) : left.size = right.size :=
  relation.length_eq

theorem Related.lead (relation : Related related left right) : related left.lead right.lead :=
  (List.forall₂_cons.mp relation).1

theorem Related.lower (relation : Related related left right) :
    List.Forall₂ related left.lower right.lower :=
  (List.forall₂_cons.mp relation).2

variable [Zero α] [Zero β] (zero : related 0 0)
include zero

theorem related_replicate_zero (size : Nat) :
    List.Forall₂ related (List.replicate size 0) (List.replicate size 0) := by
  induction size with
  | zero => exact .nil
  | succ size ih => exact .cons zero ih

theorem related_zero : Related related Dense.zero Dense.zero :=
  .cons zero .nil

theorem related_ofSlots {row : List α} {row' : List β} (rows : List.Forall₂ related row row') :
    Related related (ofSlots row) (ofSlots row') := by
  cases rows with
  | nil => exact related_zero zero
  | cons first rest => exact .cons first rest

theorem related_leadingTerm {coeff : α} {coeff' : β} (coeffs : related coeff coeff') (size : Nat) :
    Related related (leadingTerm coeff size) (leadingTerm coeff' size) :=
  .cons coeffs (related_replicate_zero zero (size - 1))

theorem Related.dropLead (relation : Related related left right) :
    Related related left.dropLead right.dropLead :=
  related_ofSlots zero relation.lower

theorem related_rowCoeff {row : List α} {row' : List β} (rows : List.Forall₂ related row row')
    (exponent : Nat) : related (rowCoeff row exponent) (rowCoeff row' exponent) := by
  induction rows with
  | nil => exact zero
  | cons first rest ih =>
      rw [rowCoeff, rowCoeff, rest.length_eq]
      split
      · exact first
      · exact ih

theorem Related.coeff (relation : Related related left right) (exponent : Nat) :
    related (left.coeff exponent) (right.coeff exponent) := by
  rw [coeff_eq_rowCoeff, coeff_eq_rowCoeff]
  exact related_rowCoeff zero relation exponent

end Shapes

section Arithmetic

variable [Zero α] [One α] [Neg α] [Add α] [Mul α] [Div α]
variable [Zero β] [One β] [Neg β] [Add β] [Mul β] [Div β]
variable {related : α → β → Prop} (respected : Respected related)
include respected

theorem related_zipWith_add {left right : List α} {left' right' : List β}
    (lefts : List.Forall₂ related left left') (rights : List.Forall₂ related right right') :
    List.Forall₂ related (List.zipWith (· + ·) left right) (List.zipWith (· + ·) left' right') := by
  induction lefts generalizing right right' with
  | nil => exact .nil
  | cons first rest ih =>
      cases rights with
      | nil => exact .nil
      | cons second others => exact .cons (respected.add first second) (ih others)

theorem related_addAligned {buffer row : List α} {buffer' row' : List β}
    (buffers : List.Forall₂ related buffer buffer') (rows : List.Forall₂ related row row') :
    List.Forall₂ related (addAligned buffer row) (addAligned buffer' row') := by
  rw [addAligned, addAligned, buffers.length_eq, rows.length_eq]
  exact List.rel_append (List.forall₂_take _ buffers)
    (related_zipWith_add respected (List.forall₂_drop _ buffers) rows)

theorem related_combine {sign : α} {sign' : β} (signs : related sign sign')
    {left right : Dense α} {left' right' : Dense β} (lefts : Related related left left')
    (rights : Related related right right') :
    Related related (combine sign left right) (combine sign' left' right') := by
  have scaled : List.Forall₂ related (right.slots.map (sign * ·)) (right'.slots.map (sign' * ·)) := by
    rw [List.forall₂_map_left_iff, List.forall₂_map_right_iff]
    exact rights.imp fun _ _ => respected.mul signs
  rw [combine, combine, lefts.size_eq, rights.size_eq]
  exact related_ofSlots respected.zero (related_addAligned respected
    (related_addAligned respected (related_replicate_zero respected.zero _) lefts) scaled)

theorem related_addScaled {factor : α} {factor' : β} (factors : related factor factor')
    {buffer row : List α} {buffer' row' : List β} (buffers : List.Forall₂ related buffer buffer')
    (rows : List.Forall₂ related row row') :
    List.Forall₂ related (addScaled factor buffer row) (addScaled factor' buffer' row') := by
  induction buffers generalizing row row' with
  | nil => cases rows <;> exact .nil
  | cons slots rest ih =>
      cases rows with
      | nil => exact .cons slots rest
      | cons entries others =>
          exact .cons (respected.add slots (respected.mul factors entries)) (ih others)

theorem related_addProduct {buffer left right : List α} {buffer' left' right' : List β}
    (buffers : List.Forall₂ related buffer buffer') (lefts : List.Forall₂ related left left')
    (rights : List.Forall₂ related right right') :
    List.Forall₂ related (addProduct buffer left right) (addProduct buffer' left' right') := by
  induction lefts generalizing buffer buffer' with
  | nil => exact buffers
  | @cons factor factor' left left' factors rest ih =>
      have scaled := related_addScaled respected factors buffers rights
      simp only [addProduct]
      cases first : addScaled factor buffer right with
      | nil =>
          rw [first] at scaled
          cases second : addScaled factor' buffer' right' with
          | nil => exact .nil
          | cons slot' later' => rw [second] at scaled; contradiction
      | cons slot later =>
          rw [first] at scaled
          cases second : addScaled factor' buffer' right' with
          | nil => rw [second] at scaled; contradiction
          | cons slot' later' =>
              rw [second] at scaled
              obtain ⟨slots, buffers⟩ := List.forall₂_cons.mp scaled
              exact .cons slots (ih buffers)

variable {left right : Dense α} {left' right' : Dense β}

theorem related_add (lefts : Related related left left') (rights : Related related right right') :
    Related related (left + right) (left' + right') :=
  related_combine respected respected.one lefts rights

theorem related_sub (lefts : Related related left left') (rights : Related related right right') :
    Related related (left - right) (left' - right') :=
  related_combine respected respected.neg_one lefts rights

theorem related_mul (lefts : Related related left left') (rights : Related related right right') :
    Related related (left * right) (left' * right') := by
  change Related related (mul left right) (mul left' right')
  rw [mul, mul, lefts.size_eq, rights.size_eq]
  exact related_ofSlots respected.zero
    (related_addProduct respected (related_replicate_zero respected.zero _) lefts rights)

theorem related_nextTerm (divisors : Related related left left')
    (remainders : Related related right right') :
    Related related (Division.nextTerm left right) (Division.nextTerm left' right') := by
  rw [Division.nextTerm, Division.nextTerm, divisors.degree_eq, remainders.degree_eq]
  exact related_leadingTerm respected.zero (respected.div remainders.lead divisors.lead) _

theorem related_nextRemainder {term : Dense α} {term' : Dense β}
    (divisors : Related related left left') (remainders : Related related right right')
    (terms : Related related term term') :
    Related related (Division.nextRemainder left right term)
      (Division.nextRemainder left' right' term') :=
  Related.dropLead respected.zero
    (related_sub respected remainders (related_mul respected terms divisors))

end Arithmetic

end Dense

end LongDivision
