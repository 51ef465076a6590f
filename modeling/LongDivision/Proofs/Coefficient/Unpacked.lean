import Mathlib

/-! Floating-point numbers by sign, mantissa and exponent. A number is its unpacked form packed
again, and rounding leaves a mantissa alone that already fits.
-/

namespace LongDivision.Binary64

open Float.Model Float.Model.UnpackedFloat

def unpacked (number : Float) : UnpackedFloat :=
  number.toModel.unpack

/-- The mantissa has its full width unless the exponent is the least one. -/
def Canonical : UnpackedFloat → Prop
  | .finite _ mantissa exponent _ =>
      mantissa < 2 ^ 53 ∧ -1074 ≤ exponent ∧ exponent ≤ 971 ∧
        (2 ^ 52 ≤ mantissa ∨ exponent = -1074)
  | _ => True

theorem toNat_hidden_append (mantissa : BitVec 52) :
    (1#1 ++ mantissa).toNat = 2 ^ 52 + mantissa.toNat := by
  rw [BitVec.toNat_append, ← Nat.shiftLeft_add_eq_or_of_lt mantissa.isLt]
  rfl

private theorem canonical_unpack (bits : BitVec Format.binary64.numBits) :
    Canonical (UnpackedFloat.unpack .binary64 bits) := by
  fun_cases UnpackedFloat.unpack .binary64 bits with
  | case1 => trivial
  | case2 => trivial
  | case3 => trivial
  | case4 mantissa exponent unbiased _ _ _ zero _ =>
      have least : unbiased + 1 = -1074 := by
        change (exponent.toNat : Int) - (1023 + 52) + 1 = -1074
        rw [zero]
        rfl
      have fits : mantissa.toNat < 2 ^ 52 := mantissa.isLt
      rw [least]
      exact ⟨by omega, by omega, by omega, .inr rfl⟩
  | case5 mantissa exponent unbiased _ _ special positive =>
      have value := toNat_hidden_append mantissa
      have fits : mantissa.toNat < 2 ^ 52 := mantissa.isLt
      have exponentFits : exponent.toNat < 2 ^ 11 := exponent.isLt
      have shifted : unbiased = (exponent.toNat : Int) - 1075 := rfl
      have nonzero : exponent.toNat ≠ 0 := fun empty => positive (BitVec.eq_of_toNat_eq empty)
      have below : exponent.toNat ≠ 2047 := fun top => special (BitVec.eq_of_toNat_eq top)
      rw [shifted]
      exact ⟨by omega, by omega, by omega, .inl (by omega)⟩

theorem canonical_unpacked (number : Float) : Canonical (unpacked number) :=
  canonical_unpack _

theorem ofModel_pack_unpacked (number : Float) :
    Float.ofModel (Float.Model.pack (unpacked number)) = number := by
  obtain ⟨⟨bits, valid⟩⟩ := number
  simp only [unpacked, Float.Model.unpack, Float.Model.pack, pack_unpack_of_valid valid]

section Rounding

theorem log2_of_hidden {mantissa : Nat} (hidden : 2 ^ 52 ≤ mantissa)
    (fits : mantissa < 2 ^ 53) : mantissa.log2 = 52 := by
  rw [Nat.log2_eq_iff (by omega)]
  exact ⟨hidden, fits⟩

theorem log2_mul_two_pow {number : Nat} (positive : 0 < number) (shift : Nat) :
    (number * 2 ^ shift).log2 = number.log2 + shift := by
  induction shift with
  | zero => rw [Nat.pow_zero, Nat.mul_one, Nat.add_zero]
  | succ shift ih =>
      have nonzero : number * 2 ^ shift ≠ 0 :=
        Nat.ne_of_gt (Nat.mul_pos positive (Nat.two_pow_pos shift))
      rw [Nat.pow_succ, ← Nat.mul_assoc, Nat.mul_comm _ 2, Nat.log2_two_mul nonzero, ih]
      rfl

private theorem shift_of_multiple (mantissa shift : Nat) :
    (ExtendedMantissa.mk (mantissa * 2 ^ shift) false false) >>> shift =
      ExtendedMantissa.mk mantissa false false := by
  induction shift generalizing mantissa with
  | zero => simp [HShiftRight.hShiftRight, Nat.repeat]
  | succ shift ih =>
      have once := ih (2 * mantissa)
      rw [Nat.mul_comm 2, Nat.mul_assoc, ← Nat.pow_succ'] at once
      change ((ExtendedMantissa.mk (mantissa * 2 ^ (shift + 1)) false false) >>> shift).shiftRightOne
        = _
      rw [once]
      simp [ExtendedMantissa.shiftRightOne]

variable {sign : Sign} {mantissa : Nat} {exponent : Int} {positive : 0 < mantissa}

theorem targetExponent_of_canonical
    (canonical : Canonical (.finite sign mantissa exponent positive)) :
    Format.binary64.targetExponent (totalExponent mantissa exponent) = exponent := by
  obtain ⟨fits, least, _, normal⟩ := canonical
  change max ((mantissa.log2 : Int) + 1 + exponent - 53) (-1074) = exponent
  rcases normal with hidden | subnormal
  · rw [log2_of_hidden hidden fits]
    omega
  · have short := (Nat.log2_lt (Nat.ne_of_gt positive)).mpr fits
    omega

theorem shiftToTargetExponent_of_multiple
    (canonical : Canonical (.finite sign mantissa exponent positive)) (shift : Nat) :
    shiftToTargetExponent .binary64 (mantissa * 2 ^ shift) (exponent - shift) .exact =
      (ExtendedMantissa.mk mantissa false false, exponent) := by
  have total : totalExponent (mantissa * 2 ^ shift) (exponent - shift) =
      totalExponent mantissa exponent := by
    rw [totalExponent, totalExponent, log2_mul_two_pow positive]
    omega
  have amount : (exponent - (exponent - shift)).toNat = shift := by omega
  rw [shiftToTargetExponent, total, targetExponent_of_canonical canonical, shiftToExponent]
  simp only [amount, ExtendedMantissa.ofMantissaAndAccuracy, shift_of_multiple,
    Int.sub_add_cancel]

/-- Rounding takes the trailing zeros off a canonical mantissa and changes nothing else. -/
theorem roundWithAccuracy_of_multiple
    (canonical : Canonical (.finite sign mantissa exponent positive)) (shift : Nat) :
    roundWithAccuracy .binary64 sign (mantissa * 2 ^ shift) (exponent - shift) .exact =
      .finite sign mantissa exponent positive := by
  have rounded : (ExtendedMantissa.mk mantissa false false).roundedMantissa = mantissa := rfl
  have again := shiftToTargetExponent_of_multiple canonical 0
  rw [Nat.pow_zero, Nat.mul_one] at again
  have unshifted : exponent - ((0 : Nat) : Int) = exponent := by omega
  rw [unshifted] at again
  simp only [roundWithAccuracy, shiftToTargetExponent_of_multiple canonical shift, rounded, again]
  rw [dif_neg (Nat.ne_of_gt positive)]

end Rounding

end LongDivision.Binary64
