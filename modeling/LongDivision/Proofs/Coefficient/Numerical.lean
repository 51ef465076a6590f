import LongDivision.Proofs.Coefficient.Special

/-! Coefficients compared by their value: zeros are the same whatever their sign, and so is what is no
number. Compared that way, floating-point numbers keep those laws of zero that a division relies on
when it pads rows with zeros.
-/

namespace LongDivision

/-- A comparison in which zeros vanish as they do in exact arithmetic. A product with zero has to be
zero only if the other factor is finite, and only dividends may be replaced by equal ones. -/
structure Numerical {α : Type} [Zero α] [One α] [Neg α] [Add α] [Sub α] [Mul α] [Div α] [BEq α]
    (same : α → α → Prop) (finite : α → Prop) : Prop where
  equivalence : Equivalence same
  beq_zero_iff (number : α) : (number == 0) = true ↔ same number 0
  add {left left' right right' : α} (lefts : same left left') (rights : same right right') :
    same (left + right) (left' + right')
  mul {factor factor' : α} (factors : same factor factor') (number : α) :
    same (factor * number) (factor' * number)
  div {dividend dividend' : α} (dividends : same dividend dividend') (divisor : α) :
    same (dividend / divisor) (dividend' / divisor)
  neg_one_mul {number number' : α} (numbers : same number number') :
    same (-1 * number) (-1 * number')
  zero_add (number : α) : same (0 + number) number
  add_zero (number : α) : same (number + 0) number
  one_mul (number : α) : same (1 * number) number
  neg_one_mul_zero : same (-1 * 0) 0
  add_neg_one_mul (left right : α) : same (left + -1 * right) (left - right)
  zero_mul {number : α} (isFinite : finite number) : same (0 * number) 0
  zero_div {number : α} (isFinite : finite number) (nonzero : (number == 0) = false) :
    same (0 / number) 0

namespace Numerical

variable {α : Type} [Zero α] [One α] [Neg α] [Add α] [Sub α] [Mul α] [Div α] [BEq α]
variable {same : α → α → Prop} {finite : α → Prop} (numerical : Numerical same finite)
include numerical

theorem refl (number : α) : same number number :=
  numerical.equivalence.refl number

theorem symm {left right : α} (equal : same left right) : same right left :=
  numerical.equivalence.symm equal

theorem trans {first second third : α} (lower : same first second) (upper : same second third) :
    same first third :=
  numerical.equivalence.trans lower upper

theorem zero_beq_zero : ((0 : α) == 0) = true :=
  (numerical.beq_zero_iff 0).mpr (numerical.refl 0)

theorem sub {left left' right right' : α} (lefts : same left left') (rights : same right right') :
    same (left - right) (left' - right') := by
  have sums := numerical.add lefts (numerical.neg_one_mul rights)
  exact numerical.trans (numerical.symm (numerical.add_neg_one_mul left right))
    (numerical.trans sums (numerical.add_neg_one_mul left' right'))

theorem sub_zero (number : α) : same (number - 0) number := by
  have vanished := numerical.add (numerical.refl number) numerical.neg_one_mul_zero
  exact numerical.trans (numerical.symm (numerical.add_neg_one_mul number 0))
    (numerical.trans vanished (numerical.add_zero number))

/-- A zero multiple takes nothing away. -/
theorem sub_zero_mul {factor : α} (zero : same factor 0) {number : α} (isFinite : finite number)
    (slot : α) : same (slot - factor * number) slot := by
  have product := numerical.trans (numerical.mul zero number) (numerical.zero_mul isFinite)
  exact numerical.trans (numerical.sub (numerical.refl slot) product) (numerical.sub_zero slot)

end Numerical

/-- In exact arithmetic, coefficients have the same value only if they are equal. -/
theorem numerical_eq {K : Type} [Field K] [DecidableEq K] :
    Numerical (Eq : K → K → Prop) fun _ => True where
  equivalence := eq_equivalence
  beq_zero_iff number := beq_iff_eq
  add lefts rights := by rw [lefts, rights]
  mul factors number := by rw [factors]
  div dividends divisor := by rw [dividends]
  neg_one_mul numbers := by rw [numbers]
  zero_add := zero_add
  add_zero := add_zero
  one_mul := one_mul
  neg_one_mul_zero := mul_zero _
  add_neg_one_mul left right := by rw [neg_one_mul, sub_eq_add_neg]
  zero_mul _ := zero_mul _
  zero_div _ _ := zero_div _

namespace Binary64

open Float.Model Float.Model.UnpackedFloat

/-- Equal numbers, zeros of either sign among them, or two that are no numbers. -/
def SameNumber (left right : Float) : Prop :=
  (left == right) = true ∨ (left.isNaN = true ∧ right.isNaN = true)

variable {left right zero other number : Float}

theorem beq_of_zeros (isZero : (zero == 0) = true) (otherZero : (other == 0) = true) :
    (zero == other) = true := by
  obtain ⟨sign, form⟩ := unpacked_of_zero isZero
  obtain ⟨otherSign, otherForm⟩ := unpacked_of_zero otherZero
  change (unpacked zero).beq (unpacked other) = true
  rw [form, otherForm]
  cases sign <;> cases otherSign <;> rfl

/-- Numbers of the same value are identical unless they are zeros. -/
theorem sameNumber_iff :
    SameNumber left right ↔ left = right ∨ ((left == 0) = true ∧ (right == 0) = true) := by
  constructor
  · rintro (equal | ⟨leftNaN, rightNaN⟩)
    · obtain ⟨_, _, rfl | ⟨rfl, rfl⟩ | ⟨rfl, rfl⟩⟩ := Float.beq_iff_ne_nan_and_eq.mp equal
      · exact .inl rfl
      · exact .inr ⟨by decide, by decide⟩
      · exact .inr ⟨by decide, by decide⟩
    · rw [Float.isNaN_eq_decide_eq_nan, decide_eq_true_eq] at leftNaN rightNaN
      exact .inl (leftNaN.trans rightNaN.symm)
  · rintro (rfl | ⟨leftZero, rightZero⟩)
    · by_cases isNaN : left.isNaN = true
      · exact .inr ⟨isNaN, isNaN⟩
      · rw [Float.isNaN_eq_decide_eq_nan, decide_eq_true_eq] at isNaN
        exact .inl (Float.beq_self_iff.mpr isNaN)
    · exact .inl (beq_of_zeros leftZero rightZero)

theorem sameNumber_of_zeros (isZero : (zero == 0) = true) (otherZero : (other == 0) = true) :
    SameNumber zero other :=
  .inl (beq_of_zeros isZero otherZero)

theorem sameNumber_of_eq (equal : left = right) : SameNumber left right :=
  sameNumber_iff.mpr (.inl equal)

theorem equivalence_sameNumber : Equivalence SameNumber where
  refl number := sameNumber_of_eq rfl
  symm same := by
    rcases sameNumber_iff.mp same with rfl | ⟨leftZero, rightZero⟩
    · exact sameNumber_of_eq rfl
    · exact sameNumber_of_zeros rightZero leftZero
  trans := by
    intro first second third lower upper
    rcases sameNumber_iff.mp lower with rfl | ⟨firstZero, secondZero⟩
    · exact upper
    · rcases sameNumber_iff.mp upper with rfl | ⟨_, thirdZero⟩
      · exact lower
      · exact sameNumber_of_zeros firstZero thirdZero

/-- An operation keeps the value if it does so for zeros. -/
theorem SameNumber.congr (same : SameNumber left right) (operation : Float → Float)
    (zeros : ∀ {zero other : Float}, (zero == 0) = true → (other == 0) = true →
      SameNumber (operation zero) (operation other)) :
    SameNumber (operation left) (operation right) := by
  rcases sameNumber_iff.mp same with rfl | ⟨leftZero, rightZero⟩
  · exact sameNumber_of_eq rfl
  · exact zeros leftZero rightZero

section Sums

theorem sameNumber_add_zero (isZero : (zero == 0) = true) (number : Float) :
    SameNumber (number + zero) number := by
  cases vanishing : number == 0 with
  | true => exact sameNumber_of_zeros (zero_add_zero_float vanishing isZero) vanishing
  | false => exact sameNumber_of_eq (add_zero_float isZero vanishing)

theorem sameNumber_zero_add (isZero : (zero == 0) = true) (number : Float) :
    SameNumber (zero + number) number := by
  cases vanishing : number == 0 with
  | true => exact sameNumber_of_zeros (zero_add_zero_float isZero vanishing) vanishing
  | false => exact sameNumber_of_eq (zero_add_float isZero vanishing)

theorem sameNumber_add {left' right' : Float} (lefts : SameNumber left left')
    (rights : SameNumber right right') : SameNumber (left + right) (left' + right') := by
  have first : SameNumber (left + right) (left' + right) :=
    lefts.congr (· + right) fun isZero otherZero =>
      equivalence_sameNumber.trans (sameNumber_zero_add isZero right)
        (equivalence_sameNumber.symm (sameNumber_zero_add otherZero right))
  have second : SameNumber (left' + right) (left' + right') :=
    rights.congr (left' + ·) fun isZero otherZero =>
      equivalence_sameNumber.trans (sameNumber_add_zero isZero left')
        (equivalence_sameNumber.symm (sameNumber_add_zero otherZero left'))
  exact equivalence_sameNumber.trans first second

theorem apply_neg (sign : Sign) (integer : Int) : (-sign).apply integer = -sign.apply integer := by
  cases sign with
  | positive => rfl
  | negative => exact (Int.neg_neg integer).symm

theorem add_neg (minuend subtrahend : UnpackedFloat) :
    UnpackedFloat.add .binary64 minuend subtrahend.neg =
      UnpackedFloat.sub .binary64 minuend subtrahend := by
  cases minuend with
  | infinity sign => cases subtrahend <;> rfl
  | notANumber => rfl
  | zero sign => cases subtrahend <;> rfl
  | finite sign mantissa exponent positive =>
      cases subtrahend with
      | infinity other => rfl
      | notANumber => rfl
      | zero other => rfl
      | finite other mantissa' exponent' positive' =>
          simp only [UnpackedFloat.neg, UnpackedFloat.add, UnpackedFloat.sub, apply_neg,
            ← Int.sub_eq_add_neg]

theorem add_neg_one_mul_float (left right : Float) : left + -1 * right = left - right := by
  change Float.ofModel (Float.Model.pack
      (UnpackedFloat.add .binary64 (unpacked left) (unpacked (-1 * right)))) =
    Float.ofModel (Float.Model.pack (UnpackedFloat.sub .binary64 (unpacked left) (unpacked right)))
  rw [unpacked_neg_one_mul, add_neg]

end Sums

section Products

/-- Results that are zeros on one condition and no numbers otherwise. -/
theorem sameNumber_of_vanishing {condition : Bool}
    (lefts : if condition then (left == 0) = true else left = Float.nan)
    (rights : if condition then (right == 0) = true else right = Float.nan) :
    SameNumber left right := by
  cases condition with
  | true => exact sameNumber_of_zeros lefts rights
  | false => exact sameNumber_of_eq (lefts.trans rights.symm)

theorem zero_mul_float (isZero : (zero == 0) = true) (number : Float) :
    if number.isFinite then (zero * number == 0) = true else zero * number = Float.nan := by
  obtain ⟨sign, form⟩ := unpacked_of_zero isZero
  have kind : number.isFinite = (unpacked number).isFinite := rfl
  have product : zero * number = Float.ofModel (Float.Model.pack
      (UnpackedFloat.mul .binary64 (unpacked zero) (unpacked number))) := rfl
  rw [kind, product, form]
  cases unpacked number with
  | infinity other => rfl
  | notANumber => rfl
  | zero other => exact packed_zero_beq _
  | finite other mantissa exponent positive => exact packed_zero_beq _

theorem zero_div_float (isZero : (zero == 0) = true) (divisor : Float) :
    if !(divisor == 0) && !divisor.isNaN then (zero / divisor == 0) = true
    else zero / divisor = Float.nan := by
  obtain ⟨sign, form⟩ := unpacked_of_zero isZero
  have vanishes : (divisor == 0) = (unpacked divisor).beq (.zero .positive) := rfl
  have kind : divisor.isNaN = (unpacked divisor).isNaN := rfl
  have quotient : zero / divisor = Float.ofModel (Float.Model.pack
      (UnpackedFloat.div .binary64 (unpacked zero) (unpacked divisor))) := rfl
  rw [vanishes, kind, quotient, form]
  cases unpacked divisor with
  | infinity other => cases other <;> exact packed_zero_beq _
  | notANumber => rfl
  | zero other => cases other <;> rfl
  | finite other mantissa exponent positive => cases other <;> exact packed_zero_beq _

theorem sameNumber_mul {factor factor' : Float} (factors : SameNumber factor factor')
    (number : Float) : SameNumber (factor * number) (factor' * number) :=
  factors.congr (· * number) fun isZero otherZero =>
    sameNumber_of_vanishing (zero_mul_float isZero number) (zero_mul_float otherZero number)

theorem sameNumber_div {dividend dividend' : Float} (dividends : SameNumber dividend dividend')
    (divisor : Float) : SameNumber (dividend / divisor) (dividend' / divisor) :=
  dividends.congr (· / divisor) fun isZero otherZero =>
    sameNumber_of_vanishing (zero_div_float isZero divisor) (zero_div_float otherZero divisor)

end Products

/-- Floating-point numbers compared by value: only finite numbers have zero multiples. -/
theorem numerical_sameNumber : Numerical SameNumber fun number => number.isFinite = true where
  equivalence := equivalence_sameNumber
  beq_zero_iff number := by
    refine ⟨fun isZero => sameNumber_of_zeros isZero (by decide), fun same => ?_⟩
    rcases sameNumber_iff.mp same with rfl | ⟨isZero, _⟩
    · decide
    · exact isZero
  add := sameNumber_add
  mul := sameNumber_mul
  div := sameNumber_div
  neg_one_mul numbers := numbers.congr (-1 * ·) fun isZero otherZero =>
    sameNumber_of_zeros (neg_one_mul_beq_zero isZero) (neg_one_mul_beq_zero otherZero)
  zero_add := sameNumber_zero_add (by decide)
  add_zero := sameNumber_add_zero (by decide)
  one_mul number := sameNumber_of_eq (one_mul_float number)
  neg_one_mul_zero := sameNumber_of_zeros (neg_one_mul_beq_zero (by decide)) (by decide)
  add_neg_one_mul left right := sameNumber_of_eq (add_neg_one_mul_float left right)
  zero_mul := by
    intro number isFinite
    have product := zero_mul_float (by decide : ((0 : Float) == 0) = true) number
    rw [if_pos isFinite] at product
    exact sameNumber_of_zeros product (by decide)
  zero_div := by
    intro number isFinite nonzero
    have quotient := zero_div_float (by decide : ((0 : Float) == 0) = true) number
    have isNumber : number.isNaN = false := by
      by_contra isNaN
      rw [isFinite_eq_false_iff.mpr (.inr (Bool.eq_true_of_not_eq_false isNaN))] at isFinite
      contradiction
    rw [nonzero, isNumber] at quotient
    exact sameNumber_of_zeros quotient (by decide)

end Binary64

end LongDivision
