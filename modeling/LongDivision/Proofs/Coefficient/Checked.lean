import LongDivision.Proofs.Coefficient.Exact
import Mathlib.Data.Rat.Cast.Order

/-! Integers that are lost as soon as a result is not exact. What is computed with them without a
loss is computed alike with any coefficients that include the integers up to `2 ^ 53`.
-/

namespace LongDivision

open Binary64

/-- An integer up to `2 ^ 53`, or what is left of a computation that led to anything else. -/
inductive Checked where
  | exact (integer : Int)
  | lost
  deriving DecidableEq

namespace Checked

def ofInteger (integer : Int) : Checked :=
  if integer.natAbs ≤ greatestExact then exact integer else lost

/-- An operation whose operands must be there. -/
def lift (operation : Int → Int → Checked) : Checked → Checked → Checked
  | exact left, exact right => operation left right
  | _, _ => lost

/-- A quotient is exact only if nothing remains. -/
def quotient (left right : Int) : Checked :=
  if right ≠ 0 ∧ right ∣ left then ofInteger (left / right) else lost

instance : Zero Checked := ⟨exact 0⟩

instance : One Checked := ⟨exact 1⟩

instance : IntCast Checked := ⟨ofInteger⟩

instance : Neg Checked where
  neg
    | exact integer => exact (-integer)
    | lost => lost

instance : Add Checked := ⟨lift fun left right => ofInteger (left + right)⟩

instance : Mul Checked := ⟨lift fun left right => ofInteger (left * right)⟩

instance : Div Checked := ⟨lift quotient⟩

/-- The integer, as far as there is one. -/
def value : Checked → Int
  | exact integer => integer
  | lost => 0

theorem zero_ne_lost : (0 : Checked) ≠ lost := Checked.noConfusion

theorem eq_exact_of_ne_lost {checked : Checked} (kept : checked ≠ lost) :
    checked = exact checked.value := by
  cases checked with
  | exact integer => rfl
  | lost => contradiction

section Operations

variable {left right : Checked} {integer : Int}

theorem ofInteger_eq_exact {number : Int} (same : ofInteger number = exact integer) :
    number = integer ∧ integer.natAbs ≤ greatestExact := by
  rw [ofInteger] at same
  split at same
  · rename_i small
    cases same
    exact ⟨rfl, small⟩
  · contradiction

/-- Nothing comes back from a loss. -/
theorem lift_eq_exact {operation : Int → Int → Checked}
    (same : lift operation left right = exact integer) :
    ∃ first second, left = exact first ∧ right = exact second ∧
      operation first second = exact integer := by
  cases left with
  | lost => contradiction
  | exact first =>
      cases right with
      | lost => contradiction
      | exact second => exact ⟨first, second, rfl, rfl, same⟩

theorem quotient_eq_exact {first second : Int} (same : quotient first second = exact integer) :
    second ≠ 0 ∧ first = integer * second := by
  rw [quotient] at same
  split at same
  · rename_i divides
    obtain ⟨rfl, _⟩ := ofInteger_eq_exact same
    exact ⟨divides.1, (Int.ediv_mul_cancel divides.2).symm⟩
  · contradiction

theorem ne_lost_of_lift {operation : Int → Int → Checked} (kept : lift operation left right ≠ lost) :
    left ≠ lost ∧ right ≠ lost := by
  obtain ⟨first, second, rfl, rfl, _⟩ := lift_eq_exact (eq_exact_of_ne_lost kept)
  exact ⟨Checked.noConfusion, Checked.noConfusion⟩

theorem ne_lost_of_add (kept : left + right ≠ lost) : left ≠ lost ∧ right ≠ lost :=
  ne_lost_of_lift kept

theorem ne_lost_of_mul (kept : left * right ≠ lost) : left ≠ lost ∧ right ≠ lost :=
  ne_lost_of_lift kept

theorem ne_lost_of_div (kept : left / right ≠ lost) : left ≠ lost ∧ right ≠ lost :=
  ne_lost_of_lift kept

end Operations

end Checked

/-- Coefficients among which there are the integers up to `2 ^ 53`. Operations on these give the
integer that they should, as long as that is one of them. -/
structure IncludesIntegers {β : Type} [Zero β] [One β] [Neg β] [Add β] [Mul β] [Div β] [BEq β]
    [IntCast β] (is : β → Int → Prop) : Prop where
  zero : is 0 0
  one : is 1 1
  neg {number : β} {integer : Int} (same : is number integer) : is (-number) (-integer)
  intCast {integer : Int} (exact : integer.natAbs ≤ greatestExact) : is integer integer
  add {left right : β} {first second : Int} (leftSame : is left first) (rightSame : is right second)
    (exact : (first + second).natAbs ≤ greatestExact) : is (left + right) (first + second)
  mul {left right : β} {first second : Int} (leftSame : is left first) (rightSame : is right second)
    (exact : (first * second).natAbs ≤ greatestExact) : is (left * right) (first * second)
  div {left right : β} {integer second : Int} (leftSame : is left (integer * second))
    (rightSame : is right second) (nonzero : second ≠ 0) : is (left / right) integer
  beq_zero {number : β} {integer : Int} (same : is number integer) :
    (number == 0) = decide (integer = 0)

theorem includesIntegers_represents : IncludesIntegers Represents where
  zero := .zero
  one := .one
  neg := .neg
  intCast := .intCast
  add := .add
  mul := .mul
  div := .div
  beq_zero := Represents.beq_zero

theorem includesIntegers_rat : IncludesIntegers fun (number : ℚ) (integer : Int) => number = integer where
  zero := Int.cast_zero.symm
  one := Int.cast_one.symm
  neg same := by rw [same, Int.cast_neg]
  intCast _ := rfl
  add leftSame rightSame _ := by rw [leftSame, rightSame, Int.cast_add]
  mul leftSame rightSame _ := by rw [leftSame, rightSame, Int.cast_mul]
  div leftSame rightSame nonzero := by
    rw [leftSame, rightSame, Int.cast_mul, mul_div_cancel_right₀ _ (Int.cast_ne_zero.mpr nonzero)]
  beq_zero same := by
    rw [same, beq_eq_decide, decide_eq_decide]
    exact Int.cast_eq_zero

/-- A coefficient is the integer that a checked one is, unless that is lost. -/
def Agrees {β : Type} (is : β → Int → Prop) (number : β) (checked : Checked) : Prop :=
  ∀ integer, checked = .exact integer → is number integer

namespace Agrees

variable {β : Type} [Zero β] [One β] [Neg β] [Add β] [Mul β] [Div β] [BEq β] [IntCast β]
variable {is : β → Int → Prop} (includes : IncludesIntegers is)
variable {left right : β} {leftChecked rightChecked : Checked}
include includes

theorem zero : Agrees is 0 0 := by
  rintro _ ⟨⟩
  exact includes.zero

theorem one : Agrees is 1 1 := by
  rintro _ ⟨⟩
  exact includes.one

theorem neg_one : Agrees is (-1) (-1) := by
  rintro _ ⟨⟩
  exact includes.neg includes.one

theorem intCast (integer : Int) : Agrees is integer integer := by
  intro exact same
  obtain ⟨rfl, small⟩ := Checked.ofInteger_eq_exact same
  exact includes.intCast small

theorem add (leftAgrees : Agrees is left leftChecked) (rightAgrees : Agrees is right rightChecked) :
    Agrees is (left + right) (leftChecked + rightChecked) := by
  intro integer same
  obtain ⟨first, second, rfl, rfl, sum⟩ := Checked.lift_eq_exact same
  obtain ⟨rfl, small⟩ := Checked.ofInteger_eq_exact sum
  exact includes.add (leftAgrees _ rfl) (rightAgrees _ rfl) small

theorem mul (leftAgrees : Agrees is left leftChecked) (rightAgrees : Agrees is right rightChecked) :
    Agrees is (left * right) (leftChecked * rightChecked) := by
  intro integer same
  obtain ⟨first, second, rfl, rfl, product⟩ := Checked.lift_eq_exact same
  obtain ⟨rfl, small⟩ := Checked.ofInteger_eq_exact product
  exact includes.mul (leftAgrees _ rfl) (rightAgrees _ rfl) small

theorem div (leftAgrees : Agrees is left leftChecked) (rightAgrees : Agrees is right rightChecked) :
    Agrees is (left / right) (leftChecked / rightChecked) := by
  intro integer same
  obtain ⟨first, second, rfl, rfl, quotient⟩ := Checked.lift_eq_exact same
  obtain ⟨nonzero, rfl⟩ := Checked.quotient_eq_exact quotient
  exact includes.div (leftAgrees _ rfl) (rightAgrees _ rfl) nonzero

theorem beq_zero (agrees : Agrees is left leftChecked) (kept : leftChecked ≠ .lost) :
    (left == 0) = (leftChecked == 0) := by
  cases leftChecked with
  | lost => contradiction
  | exact integer =>
      rw [includes.beq_zero (agrees integer rfl), beq_eq_decide, decide_eq_decide]
      exact ⟨congrArg Checked.exact, Checked.exact.inj⟩

end Agrees

end LongDivision
