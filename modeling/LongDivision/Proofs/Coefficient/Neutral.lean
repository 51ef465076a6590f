import LongDivision.Proofs.Coefficient.Unpacked

/-! What is left of the laws of zero and one when coefficients are floating-point numbers.
-/

namespace LongDivision

/-- Zero changes no other number that it is added to, and one changes no number at all. Adding zero
to a negative zero does change its sign. -/
class NeutralUnits (α : Type) [Zero α] [One α] [Add α] [Mul α] [BEq α] : Prop where
  zero_beq_zero : ((0 : α) == 0) = true
  zero_add_zero : (0 : α) + 0 = 0
  zero_add {number : α} (nonzero : (number == 0) = false) : 0 + number = number
  add_zero {number : α} (nonzero : (number == 0) = false) : number + 0 = number
  one_mul (number : α) : 1 * number = number

namespace Binary64

open Float.Model Float.Model.UnpackedFloat

theorem unpacked_of_nonzero {number : Float} (nonzero : (number == 0) = false) (sign : Sign) :
    unpacked number ≠ .zero sign := by
  intro zero
  have equal : (number == 0) = (unpacked number).beq (.zero .positive) := rfl
  rw [zero] at equal
  rw [equal] at nonzero
  contradiction

theorem unpacked_of_zero {zero : Float} (isZero : (zero == 0) = true) :
    ∃ sign, unpacked zero = .zero sign := by
  have equal : (zero == 0) = (unpacked zero).beq (.zero .positive) := rfl
  rw [equal] at isZero
  cases form : unpacked zero with
  | zero sign => exact ⟨sign, rfl⟩
  | infinity sign =>
      rw [form] at isZero
      cases sign <;> contradiction
  | notANumber =>
      rw [form] at isZero
      contradiction
  | finite sign mantissa exponent positive =>
      rw [form] at isZero
      cases sign <;> contradiction

theorem zero_add_float {zero number : Float} (isZero : (zero == 0) = true)
    (nonzero : (number == 0) = false) : zero + number = number := by
  obtain ⟨zeroSign, zeroForm⟩ := unpacked_of_zero isZero
  have unit : UnpackedFloat.add .binary64 (.zero zeroSign) (unpacked number) = unpacked number := by
    cases form : unpacked number with
    | infinity sign => rfl
    | notANumber => rfl
    | zero sign => exact absurd form (unpacked_of_nonzero nonzero sign)
    | finite sign mantissa exponent positive => rfl
  change Float.ofModel
    (Float.Model.pack (UnpackedFloat.add .binary64 (unpacked zero) (unpacked number))) = number
  rw [zeroForm, unit, ofModel_pack_unpacked]

theorem add_zero_float {zero number : Float} (isZero : (zero == 0) = true)
    (nonzero : (number == 0) = false) : number + zero = number := by
  obtain ⟨zeroSign, zeroForm⟩ := unpacked_of_zero isZero
  have unit : UnpackedFloat.add .binary64 (unpacked number) (.zero zeroSign) = unpacked number := by
    cases form : unpacked number with
    | infinity sign => rfl
    | notANumber => rfl
    | zero sign => exact absurd form (unpacked_of_nonzero nonzero sign)
    | finite sign mantissa exponent positive => rfl
  change Float.ofModel
    (Float.Model.pack (UnpackedFloat.add .binary64 (unpacked number) (unpacked zero))) = number
  rw [zeroForm, unit, ofModel_pack_unpacked]

theorem one_mul_float (number : Float) : 1 * number = number := by
  have canonical := canonical_unpacked number
  have unit : UnpackedFloat.mul .binary64 (unpacked 1) (unpacked number) = unpacked number := by
    have one : unpacked 1 = .finite .positive (2 ^ 52) (-52) (by decide) := rfl
    rw [one]
    cases form : unpacked number with
    | infinity sign => cases sign <;> rfl
    | notANumber => rfl
    | zero sign => cases sign <;> rfl
    | finite sign mantissa exponent positive =>
        rw [form] at canonical
        have rounded := roundWithAccuracy_of_multiple canonical 52
        have signs : Sign.positive * sign = sign := by cases sign <;> rfl
        have exponents : -52 + exponent = exponent - (52 : Nat) := by omega
        rw [UnpackedFloat.mul, signs, Nat.mul_comm, exponents, rounded]
  change Float.ofModel
    (Float.Model.pack (UnpackedFloat.mul .binary64 (unpacked 1) (unpacked number))) = number
  rw [unit, ofModel_pack_unpacked]

instance neutralUnitsFloat : NeutralUnits Float where
  zero_beq_zero := by decide
  zero_add_zero := by decide
  zero_add := zero_add_float (by decide)
  add_zero := add_zero_float (by decide)
  one_mul := one_mul_float

end Binary64

end LongDivision
