import LongDivision.Proofs.Coefficient.Exact

/-! Floating-point numbers that are integers, also beyond `2 ^ 53`. A sum of two of them is exact as
long as it is at most `2 ^ 53` itself.
-/

namespace LongDivision.Binary64

open Float.Model Float.Model.UnpackedFloat

/-- A floating-point number that is exactly an integer. -/
inductive IsInteger (number : Float) : Int → Prop where
  | zero {sign : Sign} (form : unpacked number = .zero sign) : IsInteger number 0
  | finite {sign : Sign} {mantissa shift : Nat} {positive : 0 < mantissa} {integer : Int}
      (form : unpacked number = .finite sign mantissa (shift - 52) positive)
      (value : sign.apply mantissa * 2 ^ shift = integer * 2 ^ 52) : IsInteger number integer

section Values

variable {sign : Sign} {mantissa shift : Nat} {integer : Int}

theorem natAbs_apply (sign : Sign) (natural : Nat) : (sign.apply natural).natAbs = natural := by
  cases sign with
  | positive => rfl
  | negative => exact Int.natAbs_neg natural

theorem natAbs_value (value : sign.apply mantissa * 2 ^ shift = integer * 2 ^ 52) :
    mantissa * 2 ^ shift = integer.natAbs * 2 ^ 52 := by
  have same := congrArg Int.natAbs value
  rw [Int.natAbs_mul, Int.natAbs_mul, natAbs_apply, Int.natAbs_pow, Int.natAbs_pow] at same
  exact same

/-- A mantissa that is not zero has the sign of the integer. -/
theorem apply_natAbs_of_value (value : sign.apply mantissa * 2 ^ shift = integer * 2 ^ 52) :
    sign.apply integer.natAbs = integer := by
  have power : (0 : Int) < 2 ^ shift := by positivity
  cases sign with
  | positive =>
      have nonneg : 0 ≤ (mantissa : Int) * 2 ^ shift := by positivity
      change (mantissa : Int) * 2 ^ shift = integer * 2 ^ 52 at value
      change (integer.natAbs : Int) = integer
      omega
  | negative =>
      have nonneg : 0 ≤ (mantissa : Int) * 2 ^ shift := by positivity
      change -(mantissa : Int) * 2 ^ shift = integer * 2 ^ 52 at value
      rw [Int.neg_mul] at value
      change -(integer.natAbs : Int) = integer
      omega

/-- Aligned to an exponent that is no larger, the mantissa still has the same value. -/
theorem aligned_of_value {least : Nat} (fine : least ≤ shift)
    (value : sign.apply mantissa * 2 ^ shift = integer * 2 ^ 52) :
    sign.apply (mantissa <<< ((shift : Int) - 52 - (least - 52)).toNat : Nat) * 2 ^ least =
      integer * 2 ^ 52 := by
  have amount : ((shift : Int) - 52 - (least - 52)).toNat = shift - least := by omega
  have powers : (2 : Int) ^ (shift - least) * 2 ^ least = 2 ^ shift := by
    rw [← Int.pow_add, Nat.sub_add_cancel fine]
  rw [amount, Nat.shiftLeft_eq, ← value]
  cases sign with
  | positive =>
      simp only [Sign.apply, Nat.cast_mul, Nat.cast_pow, Nat.cast_ofNat]
      rw [Int.mul_assoc, powers]
  | negative =>
      simp only [Sign.apply, Nat.cast_mul, Nat.cast_pow, Nat.cast_ofNat, Int.neg_mul]
      rw [Int.mul_assoc, powers]

end Values

variable {left right number : Float} {integer first second : Int}

theorem Represents.isInteger (represents : Represents number integer) :
    IsInteger number integer := by
  obtain ⟨exact, sign, signed, form⟩ := represents
  by_cases zero : integer = 0
  · subst zero
    exact .zero form
  · have positive := Int.natAbs_pos.mpr zero
    obtain ⟨_, finite⟩ := whole_of_positive sign positive exact
    have value := aligned integer.natAbs.log2 positive exact signed (Nat.le_refl _)
    rw [Int.sub_self, Int.toNat_zero, Nat.shiftLeft_zero] at value
    exact .finite (form.trans finite) value

namespace IsInteger

theorem represents (isInteger : IsInteger number integer)
    (exact : integer.natAbs ≤ greatestExact) : Represents number integer := by
  cases isInteger with
  | zero form =>
      refine ⟨exact, _, ?_, form⟩
      rename_i sign
      cases sign <;> rfl
  | @finite sign mantissa shift positive _ form value =>
      have canonical := canonical_unpacked number
      rw [form] at canonical
      obtain ⟨fits, _, _, normal⟩ := canonical
      have hidden : 2 ^ 52 ≤ mantissa := normal.resolve_right (by omega)
      have absolute := natAbs_value value
      have nonzero : 0 < integer.natAbs := by
        apply Nat.pos_of_ne_zero
        intro zero
        have := Nat.mul_pos positive (Nat.two_pow_pos shift)
        omega
      obtain ⟨_, digits⟩ := log2_of_value nonzero absolute
      rw [log2_of_hidden hidden fits] at digits
      have place : shift = integer.natAbs.log2 := by omega
      have same : mantissa = wholeMantissa integer.natAbs := by
        apply Nat.eq_of_mul_eq_mul_right (Nat.two_pow_pos shift)
        rw [absolute, place, wholeMantissa_mul nonzero exact]
      obtain ⟨_, whole⟩ := whole_of_positive sign nonzero exact
      refine ⟨exact, sign, apply_natAbs_of_value value, ?_⟩
      rw [form, whole]
      simp only [same, place]

theorem add (leftInteger : IsInteger left first) (rightInteger : IsInteger right second)
    (exact : (first + second).natAbs ≤ greatestExact) :
    Represents (left + right) (first + second) := by
  cases leftInteger with
  | zero leftForm =>
      have leftZero := (IsInteger.zero leftForm).represents (by decide)
      exact leftZero.add (rightInteger.represents (by rwa [Int.zero_add] at exact)) exact
  | @finite leftSign leftMantissa leftShift _ _ leftForm leftValue =>
      cases rightInteger with
      | zero rightForm =>
          have rightZero := (IsInteger.zero rightForm).represents (by decide)
          have leftWhole := (IsInteger.finite leftForm leftValue).represents
            (by rwa [Int.add_zero] at exact)
          exact leftWhole.add rightZero exact
      | @finite rightSign rightMantissa rightShift _ _ rightForm rightValue =>
          have unit : min ((leftShift : Int) - 52) (rightShift - 52) =
              (min leftShift rightShift : Nat) - 52 := by omega
          have leftAligned := aligned_of_value (Nat.min_le_left leftShift rightShift) leftValue
          have rightAligned := aligned_of_value (Nat.min_le_right leftShift rightShift) rightValue
          refine Represents.of_packed (signOf (first + second)) rfl exact (apply_signOf _) ?_
          change UnpackedFloat.add .binary64 (unpacked left) (unpacked right) = _
          rw [leftForm, rightForm, UnpackedFloat.add, unit]
          apply normalize_of_value exact
          rw [Int.add_mul, leftAligned, rightAligned, Int.add_mul]

end IsInteger

end LongDivision.Binary64
