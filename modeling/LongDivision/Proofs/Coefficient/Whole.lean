import LongDivision.Proofs.Coefficient.Unpacked

/-! Floating-point numbers that are whole. Up to `2 ^ 53` every whole number is one of them, and
rounding and packing leave it as it is.
-/

namespace LongDivision.Binary64

open Float.Model Float.Model.UnpackedFloat

/-- Whole numbers are exact up to here. -/
def greatestExact : Nat := 2 ^ 53

/-- The digits of a whole number, filled up with zeros to fifty-three binary places. -/
def wholeMantissa (number : Nat) : Nat :=
  number * 2 ^ 52 / 2 ^ number.log2

def whole (sign : Sign) (number : Nat) : UnpackedFloat :=
  if positive : 0 < wholeMantissa number then
    .finite sign (wholeMantissa number) (number.log2 - 52) positive
  else .zero sign

section Whole

variable {number : Nat} {sign : Sign}

theorem wholeMantissa_mul (positive : 0 < number) (exact : number ≤ greatestExact) :
    wholeMantissa number * 2 ^ number.log2 = number * 2 ^ 52 := by
  apply Nat.div_mul_cancel
  by_cases short : number.log2 ≤ 52
  · exact Nat.dvd_mul_left_of_dvd (Nat.pow_dvd_pow 2 short) number
  · have reaches : 2 ^ 53 ≤ number := (Nat.le_log2 (by omega)).mp (by omega)
    have greatest : number = 2 ^ 53 := Nat.le_antisymm exact reaches
    rw [greatest, Nat.log2_two_pow]
    exact Nat.dvd_mul_right _ _

theorem wholeMantissa_lower (positive : 0 < number) (exact : number ≤ greatestExact) :
    2 ^ 52 ≤ wholeMantissa number := by
  have product := wholeMantissa_mul positive exact
  have lower := Nat.log2_self_le (Nat.ne_of_gt positive)
  apply Nat.le_of_mul_le_mul_right _ (Nat.two_pow_pos number.log2)
  rw [product, Nat.mul_comm]
  exact Nat.mul_le_mul_right _ lower

theorem wholeMantissa_upper (positive : 0 < number) (exact : number ≤ greatestExact) :
    wholeMantissa number < 2 ^ 53 := by
  have product := wholeMantissa_mul positive exact
  have upper : number < 2 ^ (number.log2 + 1) := Nat.lt_log2_self
  apply Nat.lt_of_mul_lt_mul_right (a := 2 ^ number.log2)
  rw [product]
  calc number * 2 ^ 52 < 2 ^ (number.log2 + 1) * 2 ^ 52 :=
        Nat.mul_lt_mul_of_pos_right upper (Nat.two_pow_pos 52)
    _ = 2 ^ 53 * 2 ^ number.log2 := by rw [Nat.pow_succ]; omega

theorem log2_le_of_exact (exact : number ≤ greatestExact) : number.log2 ≤ 53 := by
  by_cases positive : number = 0
  · subst positive
    decide
  · exact Nat.lt_succ_iff.mp ((Nat.log2_lt positive).mpr (Nat.lt_of_le_of_lt exact (by decide)))

theorem whole_zero (sign : Sign) : whole sign 0 = .zero sign := rfl

theorem whole_of_positive (sign : Sign) (positive : 0 < number) (exact : number ≤ greatestExact) :
    ∃ nonzero, whole sign number =
      .finite sign (wholeMantissa number) (number.log2 - 52) nonzero := by
  have nonzero : 0 < wholeMantissa number :=
    Nat.lt_of_lt_of_le (by decide) (wholeMantissa_lower positive exact)
  exact ⟨nonzero, by rw [whole, dif_pos nonzero]⟩

theorem canonical_whole (exact : number ≤ greatestExact) : Canonical (whole sign number) := by
  by_cases positive : 0 < number
  · obtain ⟨nonzero, form⟩ := whole_of_positive sign positive exact
    have short := log2_le_of_exact exact
    rw [form]
    exact ⟨wholeMantissa_upper positive exact, by omega, by omega,
      .inl (wholeMantissa_lower positive exact)⟩
  · have zero : number = 0 := by omega
    rw [zero, whole_zero]
    trivial

end Whole

section Rounding

variable {number mantissa shift : Nat} {sign : Sign}

/-- However a whole number is split into mantissa and exponent, its digits are the same. -/
theorem log2_of_value (positive : 0 < number)
    (value : mantissa * 2 ^ shift = number * 2 ^ 52) :
    0 < mantissa ∧ mantissa.log2 + shift = number.log2 + 52 := by
  have mantissaPositive : 0 < mantissa := by
    apply Nat.pos_of_ne_zero
    rintro rfl
    rw [Nat.zero_mul] at value
    omega
  refine ⟨mantissaPositive, ?_⟩
  rw [← log2_mul_two_pow mantissaPositive, value, log2_mul_two_pow positive]

theorem roundWithAccuracy_of_value (sign : Sign) {scale : Nat} (positive : 0 < number)
    (exact : number ≤ greatestExact) (value : mantissa * 2 ^ shift = number * 2 ^ scale)
    (wide : 52 ≤ scale) (fine : shift + 52 ≤ number.log2 + scale) :
    roundWithAccuracy .binary64 sign mantissa (shift - scale) .exact = whole sign number := by
  obtain ⟨gap, split⟩ := Nat.exists_eq_add_of_le fine
  obtain ⟨nonzero, form⟩ := whole_of_positive sign positive exact
  have canonical : Canonical (whole sign number) := canonical_whole exact
  have digits : mantissa = wholeMantissa number * 2 ^ gap := by
    apply Nat.eq_of_mul_eq_mul_right (Nat.two_pow_pos shift)
    calc mantissa * 2 ^ shift = number * 2 ^ 52 * 2 ^ (scale - 52) := by
          rw [value, Nat.mul_assoc, ← Nat.pow_add, Nat.add_sub_cancel' wide]
      _ = wholeMantissa number * 2 ^ (number.log2 + (scale - 52)) := by
          rw [← wholeMantissa_mul positive exact, Nat.mul_assoc, ← Nat.pow_add]
      _ = wholeMantissa number * 2 ^ gap * 2 ^ shift := by
          rw [Nat.mul_assoc, ← Nat.pow_add]
          congr 2
          omega
  have exponent : (shift : Int) - scale = (number.log2 : Int) - 52 - gap := by omega
  rw [form] at canonical ⊢
  rw [digits, exponent, roundWithAccuracy_of_multiple canonical]

theorem round_of_value (positive : 0 < number) (exact : number ≤ greatestExact)
    (value : mantissa * 2 ^ shift = number * 2 ^ 52) :
    UnpackedFloat.round .binary64 sign mantissa (shift - 52) = whole sign number := by
  obtain ⟨mantissaPositive, digits⟩ := log2_of_value positive value
  have target : Format.binary64.targetExponent (totalExponent mantissa (shift - 52)) =
      (number.log2 : Int) - 52 := by
    change max ((mantissa.log2 : Int) + 1 + (shift - 52) - 53) (-1074) = _
    omega
  by_cases fine : shift ≤ number.log2
  · have kept : decreaseExponent mantissa (shift - 52) (number.log2 - 52) =
        (mantissa, (shift : Int) - 52) := by
      have amount : ((shift : Int) - 52 - (number.log2 - 52)).toNat = 0 := by omega
      rw [decreaseExponent, amount, Nat.shiftLeft_zero]
      simp
    have rounded := roundWithAccuracy_of_value sign positive exact value (Nat.le_refl 52)
      (by omega)
    rw [UnpackedFloat.round, target, kept]
    exact rounded
  · have moved : decreaseExponent mantissa (shift - 52) (number.log2 - 52) =
        (mantissa * 2 ^ (shift - number.log2), (number.log2 : Int) - 52) := by
      have amount : ((shift : Int) - 52 - (number.log2 - 52)).toNat = shift - number.log2 := by
        omega
      have exponent : (shift : Int) - 52 - (shift - number.log2 : Nat) = number.log2 - 52 := by
        omega
      simp only [decreaseExponent, amount, exponent, Nat.shiftLeft_eq]
    have same : mantissa * 2 ^ (shift - number.log2) * 2 ^ number.log2 = number * 2 ^ 52 := by
      rw [Nat.mul_assoc, ← Nat.pow_add, Nat.sub_add_cancel (by omega), value]
    have rounded := roundWithAccuracy_of_value sign positive exact same (Nat.le_refl 52)
      (Nat.le_refl _)
    rw [UnpackedFloat.round, target, moved]
    exact rounded

/-- The sign of an integer; zero counts as positive. -/
def signOf (integer : Int) : Sign :=
  if integer < 0 then .negative else .positive

theorem apply_signOf (integer : Int) : (signOf integer).apply integer.natAbs = integer := by
  rw [signOf]
  split
  · simp only [Sign.apply]
    omega
  · simp only [Sign.apply]
    omega

theorem normalize_of_value {integer signed : Int} (exact : integer.natAbs ≤ greatestExact)
    (value : signed * 2 ^ shift = integer * 2 ^ 52) :
    UnpackedFloat.normalize .binary64 signed (shift - 52) .positive =
      whole (signOf integer) integer.natAbs := by
  have power : (0 : Int) < 2 ^ shift := by positivity
  have absolute : signed.natAbs * 2 ^ shift = integer.natAbs * 2 ^ 52 := by
    have := congrArg Int.natAbs value
    simpa [Int.natAbs_mul, Int.natAbs_pow] using this
  rcases Int.lt_trichotomy signed 0 with negative | zero | positive
  · have below : integer < 0 := by nlinarith
    have compared : compare signed 0 = .lt := compare_lt_iff_lt.mpr negative
    have digits : (-signed).toNat = signed.natAbs := by omega
    simp only [UnpackedFloat.normalize, compared, digits, signOf, if_pos below]
    exact round_of_value (by omega) exact absolute
  · subst zero
    have none : integer = 0 := by omega
    subst none
    rfl
  · have above : 0 < integer := by nlinarith
    have compared : compare signed 0 = .gt := compare_gt_iff_gt.mpr positive
    have digits : signed.toNat = signed.natAbs := by omega
    simp only [UnpackedFloat.normalize, compared, digits, signOf, if_neg (Int.not_lt.mpr (Int.le_of_lt above))]
    exact round_of_value (by omega) exact absolute

end Rounding

section Packing

variable {number : Nat} {sign : Sign}

theorem unpack_pack_of_normal {mantissa : Nat} {exponent : Int} {positive : 0 < mantissa}
    (hidden : 2 ^ 52 ≤ mantissa) (fits : mantissa < 2 ^ 53) (least : -1074 ≤ exponent)
    (greatest : exponent ≤ 971) :
    UnpackedFloat.unpack .binary64 (UnpackedFloat.pack .binary64 (.finite sign mantissa exponent positive)) =
      .finite sign mantissa exponent positive := by
  obtain ⟨biased, shifted⟩ := Int.eq_ofNat_of_zero_le (a := exponent + 1075) (by omega)
  have digits : mantissa.log2 + 1 = 53 := by
    rw [Nat.add_right_cancel_iff, Nat.log2_eq_iff (by omega)]
    exact ⟨hidden, fits⟩
  have bits : (exponent + Format.binary64.exponentBias +
      Format.binary64.mantissaBitsWithoutImplicit).toNat = biased := by
    change (exponent + 1023 + 52).toNat = biased
    omega
  have value : (BitVec.ofNat 11 biased).toNat = biased := Nat.mod_eq_of_lt (by omega)
  have notTop : BitVec.ofNat 11 biased ≠ -1#11 := by
    intro top
    have := congrArg BitVec.toNat top
    rw [value] at this
    change biased = 2047 at this
    omega
  have notZero : BitVec.ofNat 11 biased ≠ 0#11 := by
    intro zero
    have := congrArg BitVec.toNat zero
    rw [value] at this
    change biased = 0 at this
    omega
  have mantissaValue : (1#1 ++ BitVec.ofNat 52 mantissa).toNat = mantissa := by
    rw [toNat_hidden_append]
    change 2 ^ 52 + mantissa % 2 ^ 52 = mantissa
    omega
  have packed : UnpackedFloat.pack .binary64 (.finite sign mantissa exponent positive) =
      packComponents .binary64 sign (BitVec.ofNat 11 biased) (BitVec.ofNat 52 mantissa) := by
    rw [UnpackedFloat.pack, bits, if_neg (by change ¬ 2048 ≤ biased + 1; omega)]
    exact if_pos digits
  rw [packed]
  simp only [UnpackedFloat.unpack, unpackExponent_packComponents, unpackMantissa_packComponents,
    unpackSign_packComponents, Sign.ofBitVec_toBitVec, if_neg notTop, if_neg notZero, value]
  have unbiased : (biased : Int) - (Format.binary64.exponentBias + (52 : Nat)) = exponent := by
    change (biased : Int) - (1023 + 52) = exponent
    omega
  simp only [mantissaValue, unbiased]

theorem unpack_pack_whole (exact : number ≤ greatestExact) :
    UnpackedFloat.unpack .binary64 (UnpackedFloat.pack .binary64 (whole sign number)) = whole sign number := by
  by_cases positive : 0 < number
  · obtain ⟨nonzero, form⟩ := whole_of_positive sign positive exact
    have short := log2_le_of_exact exact
    rw [form]
    exact unpack_pack_of_normal (wholeMantissa_lower positive exact)
      (wholeMantissa_upper positive exact) (by omega) (by omega)
  · have zero : number = 0 := by omega
    rw [zero, whole_zero]
    exact unpack_packedZero

theorem unpacked_of_eq_whole {number : Float} {natural : Nat} (exact : natural ≤ greatestExact)
    (packed : number = Float.ofModel (Float.Model.pack (whole sign natural))) :
    unpacked number = whole sign natural := by
  rw [packed]
  exact unpack_pack_whole exact

end Packing

end LongDivision.Binary64
