import LongDivision.Proofs.Coefficient.Neutral
import LongDivision.Proofs.Coefficient.Whole

/-! Zeros of either sign, infinities and NaN in sums. A number and its opposite add up to zero
exactly when the number is finite.
-/

namespace LongDivision

/-- A zero of either sign changes no other number, and zeros only add up to zeros. -/
class VanishingZeros (α : Type) [Zero α] [Add α] [BEq α] : Prop where
  zero_beq_zero : ((0 : α) == 0) = true
  zero_add {zero number : α} (isZero : (zero == 0) = true) (nonzero : (number == 0) = false) :
    zero + number = number
  zero_add_zero {zero other : α} (isZero : (zero == 0) = true) (otherZero : (other == 0) = true) :
    (zero + other == 0) = true

namespace Binary64

open Float.Model Float.Model.UnpackedFloat

section Packing

variable {sign : Sign} {mantissa : Nat} {positive : 0 < mantissa}

theorem unpack_pack_of_subnormal (small : mantissa < 2 ^ 52) :
    UnpackedFloat.unpack .binary64
        (UnpackedFloat.pack .binary64 (.finite sign mantissa (-1074) positive)) =
      .finite sign mantissa (-1074) positive := by
  have short : ¬ mantissa.log2 + 1 = 53 := by
    have := (Nat.log2_lt (Nat.ne_of_gt positive)).mpr small
    omega
  have value : (BitVec.ofNat 52 mantissa).toNat = mantissa := Nat.mod_eq_of_lt small
  have nonzero : BitVec.ofNat 52 mantissa ≠ 0#52 := by
    intro zero
    have := congrArg BitVec.toNat zero
    rw [value] at this
    change mantissa = 0 at this
    omega
  have notTop : 0#11 ≠ -1#11 := by decide
  have packed : UnpackedFloat.pack .binary64 (.finite sign mantissa (-1074) positive) =
      packComponents .binary64 sign 0#11 (BitVec.ofNat 52 mantissa) := by
    rw [UnpackedFloat.pack, if_neg (by decide)]
    exact if_neg short
  rw [packed]
  simp only [UnpackedFloat.unpack, unpackExponent_packComponents, unpackMantissa_packComponents,
    unpackSign_packComponents, Sign.ofBitVec_toBitVec, if_neg notTop, if_true, dif_neg nonzero,
    value]
  rfl

theorem unpack_pack_of_canonical {number : UnpackedFloat} (canonical : Canonical number) :
    UnpackedFloat.unpack .binary64 (UnpackedFloat.pack .binary64 number) = number := by
  cases number with
  | infinity sign => cases sign <;> rfl
  | notANumber => rfl
  | zero sign => cases sign <;> rfl
  | finite sign mantissa exponent positive =>
      obtain ⟨fits, least, greatest, normal⟩ := canonical
      by_cases hidden : 2 ^ 52 ≤ mantissa
      · exact unpack_pack_of_normal hidden fits least greatest
      · obtain rfl := normal.resolve_left hidden
        exact unpack_pack_of_subnormal (Nat.lt_of_not_le hidden)

end Packing

section Zeros

variable {zero other : Float}

theorem packed_zero_beq (sign : Sign) :
    (Float.ofModel (Float.Model.pack (.zero sign)) == 0) = true := by
  cases sign <;> rfl

theorem zero_add_zero_float (isZero : (zero == 0) = true) (otherZero : (other == 0) = true) :
    (zero + other == 0) = true := by
  obtain ⟨sign, form⟩ := unpacked_of_zero isZero
  obtain ⟨otherSign, otherForm⟩ := unpacked_of_zero otherZero
  have sum : ∃ sumSign, UnpackedFloat.add .binary64 (.zero sign) (.zero otherSign) =
      .zero sumSign := by
    cases sign <;> cases otherSign <;> exact ⟨_, rfl⟩
  obtain ⟨sumSign, sum⟩ := sum
  change (Float.ofModel (Float.Model.pack
    (UnpackedFloat.add .binary64 (unpacked zero) (unpacked other))) == 0) = true
  rw [form, otherForm, sum, packed_zero_beq]

instance vanishingZerosFloat : VanishingZeros Float where
  zero_beq_zero := by decide
  zero_add := zero_add_float
  zero_add_zero := zero_add_zero_float

end Zeros

section NotANumber

variable {number : Float}

theorem unpacked_of_isNaN (isNaN : number.isNaN = true) : unpacked number = .notANumber := by
  have kind : number.isNaN = (unpacked number).isNaN := rfl
  rw [kind] at isNaN
  exact UnpackedFloat.isNaN_iff.mp isNaN

theorem isNaN_add (isNaN : number.isNaN = true) (addend : Float) :
    (number + addend).isNaN = true := by
  have sum : UnpackedFloat.add .binary64 .notANumber (unpacked addend) = .notANumber := by
    cases unpacked addend <;> rfl
  change (Float.ofModel (Float.Model.pack
    (UnpackedFloat.add .binary64 (unpacked number) (unpacked addend)))).isNaN = true
  rw [unpacked_of_isNaN isNaN, sum]
  rfl

theorem beq_zero_of_isNaN (isNaN : number.isNaN = true) : (number == 0) = false := by
  change (unpacked number).beq (.zero .positive) = false
  rw [unpacked_of_isNaN isNaN]
  rfl

end NotANumber

section Opposites

theorem mul_neg_one (number : Float) :
    UnpackedFloat.mul .binary64 (unpacked (-1)) (unpacked number) = (unpacked number).neg := by
  have canonical := canonical_unpacked number
  have minusOne : unpacked (-1) = .finite .negative (2 ^ 52) (-52) (by decide) := rfl
  rw [minusOne]
  cases form : unpacked number with
  | infinity sign => cases sign <;> rfl
  | notANumber => rfl
  | zero sign => cases sign <;> rfl
  | finite sign mantissa exponent positive =>
      rw [form] at canonical
      have opposite : Canonical (.finite (-sign) mantissa exponent positive) := canonical
      have rounded := roundWithAccuracy_of_multiple opposite 52
      have signs : Sign.negative * sign = -sign := by cases sign <;> rfl
      have exponents : -52 + exponent = exponent - (52 : Nat) := by omega
      rw [UnpackedFloat.mul, signs, Nat.mul_comm, exponents, rounded, UnpackedFloat.neg]

theorem canonical_neg {number : UnpackedFloat} (canonical : Canonical number) :
    Canonical number.neg := by
  cases number with
  | infinity sign => trivial
  | notANumber => trivial
  | zero sign => trivial
  | finite sign mantissa exponent positive => exact canonical

theorem unpacked_neg_one_mul (number : Float) : unpacked (-1 * number) = (unpacked number).neg := by
  change UnpackedFloat.unpack .binary64 (UnpackedFloat.pack .binary64
    (UnpackedFloat.mul .binary64 (unpacked (-1)) (unpacked number))) = _
  rw [mul_neg_one]
  exact unpack_pack_of_canonical (canonical_neg (canonical_unpacked number))

theorem apply_add_apply_neg (sign : Sign) (integer : Int) :
    sign.apply integer + (-sign).apply integer = 0 := by
  cases sign with
  | positive => exact Int.add_right_neg integer
  | negative => exact Int.add_left_neg integer

/-- Only finite numbers cancel: the difference of two infinities is no number. -/
theorem add_neg_one_mul_beq_zero (number : Float) :
    (number + -1 * number == 0) = number.isFinite := by
  have kind : number.isFinite = (unpacked number).isFinite := rfl
  change (Float.ofModel (Float.Model.pack
    (UnpackedFloat.add .binary64 (unpacked number) (unpacked (-1 * number)))) == 0) = _
  rw [unpacked_neg_one_mul, kind]
  cases unpacked number with
  | infinity sign => cases sign <;> rfl
  | notANumber => rfl
  | zero sign => cases sign <;> rfl
  | finite sign mantissa exponent positive =>
      have cancelled : UnpackedFloat.add .binary64 (.finite sign mantissa exponent positive)
          (UnpackedFloat.neg (.finite sign mantissa exponent positive)) = .zero .positive := by
        simp only [UnpackedFloat.neg, UnpackedFloat.add, decreaseExponent, apply_add_apply_neg]
        rfl
      rw [cancelled, packed_zero_beq]
      rfl

theorem isFinite_of_zero {zero : Float} (isZero : (zero == 0) = true) : zero.isFinite = true := by
  obtain ⟨sign, form⟩ := unpacked_of_zero isZero
  change (unpacked zero).isFinite = true
  rw [form]
  rfl

theorem neg_one_mul_beq_zero {zero : Float} (isZero : (zero == 0) = true) :
    (-1 * zero == 0) = true := by
  obtain ⟨sign, form⟩ := unpacked_of_zero isZero
  change (unpacked (-1 * zero)).beq (.zero .positive) = true
  rw [unpacked_neg_one_mul, form]
  rfl

theorem zero_add_neg_one_mul_beq_zero {zero : Float} (isZero : (zero == 0) = true) :
    (0 + -1 * zero == 0) = true :=
  zero_add_zero_float (by decide) (neg_one_mul_beq_zero isZero)

theorem isFinite_eq_false_iff {number : Float} :
    number.isFinite = false ↔ number.isInf = true ∨ number.isNaN = true := by
  change (unpacked number).isFinite = false ↔
    (unpacked number).isInf = true ∨ (unpacked number).isNaN = true
  cases unpacked number <;> simp [UnpackedFloat.isFinite, UnpackedFloat.isInf, UnpackedFloat.isNaN]

end Opposites

end Binary64

end LongDivision
