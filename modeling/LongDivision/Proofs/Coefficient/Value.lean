import LongDivision.Proofs.Coefficient.Integer
import LongDivision.Proofs.Coefficient.Special

/-! The rational numbers that floating-point numbers are. They tell all finite numbers apart but the
two zeros.
-/

namespace LongDivision.Binary64

open Float.Model Float.Model.UnpackedFloat

/-- Infinities and NaN have no value of their own. -/
def value (number : Float) : ℚ :=
  match unpacked number with
  | .finite sign mantissa exponent _ => sign.apply mantissa * 2 ^ exponent
  | _ => 0

/-- A floating-point number that is a rational number. -/
structure HasValue (number : Float) (rational : ℚ) : Prop where
  finite : number.isFinite = true
  value_eq : value number = rational

section Canonical

variable {sign other : Sign} {mantissa digits : Nat} {exponent place : Int}
variable {positive : 0 < mantissa} {digitsPositive : 0 < digits}

theorem apply_mul_pow_ne_zero (sign : Sign) (positive : 0 < mantissa) (exponent : Int) :
    (sign.apply mantissa : ℚ) * 2 ^ exponent ≠ 0 := by
  have digits : (mantissa : ℚ) ≠ 0 := Nat.cast_ne_zero.mpr (Nat.ne_of_gt positive)
  refine mul_ne_zero ?_ (zpow_ne_zero _ two_ne_zero)
  cases sign with
  | positive => exact digits
  | negative => simpa only [Sign.apply, Int.cast_neg, Int.cast_natCast] using neg_ne_zero.mpr digits

theorem abs_apply_mul_pow (sign : Sign) (mantissa : Nat) (exponent : Int) :
    |(sign.apply mantissa : ℚ) * 2 ^ exponent| = mantissa * 2 ^ exponent := by
  have power : (0 : ℚ) < 2 ^ exponent := zpow_pos two_pos _
  rw [abs_mul, abs_of_pos power]
  cases sign with
  | positive => simp [Sign.apply]
  | negative => simp [Sign.apply]

/-- A mantissa of full width cannot be shifted any further. -/
theorem exponent_le_of_value (canonical : Canonical (.finite sign mantissa exponent positive))
    (otherCanonical : Canonical (.finite other digits place digitsPositive))
    (same : (mantissa : ℚ) * 2 ^ exponent = digits * 2 ^ place) : place ≤ exponent := by
  by_contra above
  obtain ⟨gap, rfl⟩ := Int.le.dest (Int.le_of_lt (Int.not_le.mp above))
  have shifted : mantissa = digits * 2 ^ gap := by
    have power : (2 : ℚ) ^ exponent ≠ 0 := zpow_ne_zero _ two_ne_zero
    rw [zpow_add₀ two_ne_zero, zpow_natCast, mul_comm ((2 : ℚ) ^ exponent), ← mul_assoc] at same
    exact_mod_cast mul_right_cancel₀ power same
  have doubled : digits * 2 ≤ digits * 2 ^ gap :=
    Nat.mul_le_mul_left _ (Nat.le_self_pow (by omega) 2)
  have fits := canonical.1
  have least := canonical.2.1
  have hidden := otherCanonical.2.2.2.resolve_right (by omega)
  omega

theorem finite_eq_of_value (canonical : Canonical (.finite sign mantissa exponent positive))
    (otherCanonical : Canonical (.finite other digits place digitsPositive))
    (same : (sign.apply mantissa : ℚ) * 2 ^ exponent = other.apply digits * 2 ^ place) :
    UnpackedFloat.finite sign mantissa exponent positive =
      .finite other digits place digitsPositive := by
  have absolute := congrArg (fun number : ℚ => |number|) same
  simp only [abs_apply_mul_pow] at absolute
  obtain rfl := Int.le_antisymm (exponent_le_of_value otherCanonical canonical absolute.symm)
    (exponent_le_of_value canonical otherCanonical absolute)
  have power : (2 : ℚ) ^ exponent ≠ 0 := zpow_ne_zero _ two_ne_zero
  obtain rfl : mantissa = digits := by exact_mod_cast mul_right_cancel₀ power absolute
  have signed : sign.apply (mantissa : Int) = other.apply mantissa := by
    exact_mod_cast mul_right_cancel₀ power same
  cases sign with
  | positive =>
      cases other with
      | positive => rfl
      | negative =>
          simp only [Sign.apply] at signed
          omega
  | negative =>
      cases other with
      | negative => rfl
      | positive =>
          simp only [Sign.apply] at signed
          omega

end Canonical

section Values

variable {number other : Float} {rational : ℚ}

theorem value_of_zero {sign : Sign} (form : unpacked number = .zero sign) : value number = 0 := by
  rw [value, form]

theorem value_of_finite {sign : Sign} {mantissa : Nat} {exponent : Int} {positive : 0 < mantissa}
    (form : unpacked number = .finite sign mantissa exponent positive) :
    value number = sign.apply mantissa * 2 ^ exponent := by
  rw [value, form]

theorem finite_cases (finite : number.isFinite = true) :
    (∃ sign, unpacked number = .zero sign) ∨ ∃ sign mantissa exponent positive,
      unpacked number = .finite sign mantissa exponent positive := by
  change (unpacked number).isFinite = true at finite
  cases form : unpacked number with
  | zero sign => exact .inl ⟨sign, rfl⟩
  | finite sign mantissa exponent positive => exact .inr ⟨sign, mantissa, exponent, positive, rfl⟩
  | infinity sign =>
      rw [form] at finite
      contradiction
  | notANumber =>
      rw [form] at finite
      contradiction

namespace HasValue

theorem zero : HasValue 0 0 :=
  ⟨rfl, rfl⟩

theorem beq_zero (hasValue : HasValue number rational) :
    (number == 0) = decide (rational = 0) := by
  obtain ⟨finite, rfl⟩ := hasValue
  change (unpacked number).beq (.zero .positive) = _
  rcases finite_cases finite with ⟨sign, form⟩ | ⟨sign, mantissa, exponent, positive, form⟩
  · rw [value_of_zero form, form]
    cases sign <;> rfl
  · have nonzero := apply_mul_pow_ne_zero sign positive exponent
    rw [value_of_finite form, decide_eq_false nonzero, form]
    cases sign <;> rfl

theorem unique_of_nonzero (nonzero : rational ≠ 0) (hasValue : HasValue number rational)
    (otherHasValue : HasValue other rational) : number = other := by
  obtain ⟨finite, rfl⟩ := hasValue
  obtain ⟨otherFinite, same⟩ := otherHasValue
  have canonical := canonical_unpacked number
  have otherCanonical := canonical_unpacked other
  rw [← ofModel_pack_unpacked number, ← ofModel_pack_unpacked other]
  rcases finite_cases finite with ⟨sign, form⟩ | ⟨sign, mantissa, exponent, positive, form⟩
  · exact absurd (value_of_zero form) nonzero
  · rcases finite_cases otherFinite with ⟨otherSign, otherForm⟩ | ⟨_, _, _, _, otherForm⟩
    · rw [← same, value_of_zero otherForm] at nonzero
      contradiction
    · rw [form] at canonical
      rw [otherForm] at otherCanonical
      rw [value_of_finite form, value_of_finite otherForm] at same
      rw [form, otherForm, finite_eq_of_value canonical otherCanonical same.symm]

/-- Without rounding, zero changes no number that it is added to. -/
theorem of_zero_add (hasValue : HasValue (0 + number) rational) : HasValue number rational := by
  cases zero : number == 0 with
  | true =>
      obtain ⟨sign, form⟩ := unpacked_of_zero zero
      have sum := hasValue.beq_zero
      rw [zero_add_zero_float (by decide) zero] at sum
      rw [of_decide_eq_true sum.symm]
      exact ⟨isFinite_of_zero zero, value_of_zero form⟩
  | false => rwa [zero_add_float (by decide) zero] at hasValue

end HasValue

theorem IsInteger.hasValue {integer : Int} (isInteger : IsInteger number integer) :
    HasValue number integer := by
  cases isInteger with
  | zero form =>
      refine ⟨?_, by rw [value_of_zero form, Int.cast_zero]⟩
      change (unpacked number).isFinite = true
      rw [form]
      rfl
  | @finite sign mantissa shift positive _ form same =>
      refine ⟨?_, ?_⟩
      · change (unpacked number).isFinite = true
        rw [form]
        rfl
      · have multiple : (sign.apply mantissa : ℚ) * 2 ^ shift = integer * 2 ^ 52 := by
          exact_mod_cast same
        rw [value_of_finite form, zpow_sub₀ two_ne_zero, zpow_natCast, ← mul_div_assoc, multiple]
        exact mul_div_cancel_right₀ _ (by positivity)

end Values

section Integers

variable {number left right : Float} {integer first second : Int}

/-- Below one there is no integer but zero, so that the exponent of any other one is large enough. -/
theorem le_exponent_of_integer {sign : Sign} {mantissa : Nat} {exponent : Int}
    {positive : 0 < mantissa} (canonical : Canonical (.finite sign mantissa exponent positive))
    (same : (sign.apply mantissa : ℚ) * 2 ^ exponent = integer) : -52 ≤ exponent := by
  by_contra below
  have nonzero : integer ≠ 0 := by
    intro zero
    rw [zero, Int.cast_zero] at same
    exact apply_mul_pow_ne_zero sign positive exponent same
  have absolute := congrArg (fun number : ℚ => |number|) same
  simp only [abs_apply_mul_pow] at absolute
  have least : (1 : ℚ) ≤ |(integer : ℚ)| := by exact_mod_cast Int.one_le_abs nonzero
  have power : (2 : ℚ) ^ exponent ≤ 2 ^ (-53 : Int) := zpow_le_zpow_right₀ one_le_two (by omega)
  have fits : (mantissa : ℚ) < 2 ^ 53 := by exact_mod_cast canonical.1
  have small : (mantissa : ℚ) * 2 ^ exponent < 1 := calc
    (mantissa : ℚ) * 2 ^ exponent ≤ mantissa * 2 ^ (-53 : Int) := by gcongr
    _ < 2 ^ 53 * 2 ^ (-53 : Int) := by gcongr
    _ = 1 := by norm_num
  linarith

theorem HasValue.isInteger (hasValue : HasValue number integer) : IsInteger number integer := by
  obtain ⟨finite, same⟩ := hasValue
  have canonical := canonical_unpacked number
  rcases finite_cases finite with ⟨sign, form⟩ | ⟨sign, mantissa, exponent, positive, form⟩
  · rw [value_of_zero form] at same
    obtain rfl : integer = 0 := by exact_mod_cast same.symm
    exact .zero form
  · rw [form] at canonical
    rw [value_of_finite form] at same
    have enough := le_exponent_of_integer canonical same
    obtain ⟨shift, moved⟩ := Int.eq_ofNat_of_zero_le (a := exponent + 52) (by omega)
    obtain rfl : exponent = shift - 52 := by omega
    refine .finite form ?_
    rw [zpow_sub₀ two_ne_zero, zpow_natCast, ← mul_div_assoc,
      div_eq_iff (zpow_ne_zero _ two_ne_zero)] at same
    exact_mod_cast same

/-- Up to `2 ^ 53` no sum of integers is rounded. -/
theorem HasValue.add_integers (leftValue : HasValue left first) (rightValue : HasValue right second)
    (exact : (first + second).natAbs ≤ 2 ^ 53) :
    HasValue (left + right) ((first : ℚ) + second) := by
  have sum := (leftValue.isInteger.add rightValue.isInteger exact).isInteger.hasValue
  rwa [Int.cast_add] at sum

end Integers

end LongDivision.Binary64
