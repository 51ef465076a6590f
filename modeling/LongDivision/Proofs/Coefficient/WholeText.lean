import LongDivision.Proofs.Coefficient.Exact
import LongDivision.Proofs.Decimal.Grid

/-! The text of whole floating-point numbers is that of the integers they are.
-/

namespace LongDivision.Binary64

open Float.Model Float.Model.UnpackedFloat

def negative : Sign → Bool
  | .negative => true
  | .positive => false

def ofUnpacked : UnpackedFloat → Binary64
  | .notANumber => .nan
  | .infinity sign => .infinite (negative sign)
  | .zero sign => .finite (negative sign) 0 0
  | .finite sign mantissa exponent _ => .finite (negative sign) mantissa (exponent + 1074).toNat

section Bits

variable (bits : BitVec Format.binary64.numBits)

theorem toNat_unpackMantissa : (unpackMantissa bits).toNat = bits.toNat % hiddenBit := by
  simp only [unpackMantissa, BitVec.toNat_cast, BitVec.extractLsb_toNat, Nat.shiftRight_zero]
  rfl

theorem toNat_unpackExponent : (unpackExponent bits).toNat = bits.toNat / hiddenBit % 2048 := by
  simp only [unpackExponent, BitVec.toNat_cast, BitVec.extractLsb_toNat, Nat.shiftRight_eq_div_pow]
  rfl

theorem negative_unpackSign :
    negative (Sign.ofBitVec (unpackSign bits)) = (bits.toNat / Nat.pow 2 63 == 1) := by
  have value : (unpackSign bits).toNat = bits.toNat / Nat.pow 2 63 := by
    simp only [unpackSign, BitVec.toNat_cast, BitVec.extractLsb_toNat, Nat.shiftRight_eq_div_pow]
    change bits.toNat / 2 ^ 63 % 2 = bits.toNat / 2 ^ 63
    have fits : bits.toNat < 2 ^ 64 := bits.isLt
    omega
  rw [← value, Sign.ofBitVec]
  generalize unpackSign bits = sign
  revert sign
  decide

theorem ofBits_toNat : ofBits bits.toNat = ofUnpacked (UnpackedFloat.unpack .binary64 bits) := by
  have top : unpackExponent bits = -1#11 ↔ bits.toNat / hiddenBit % 2048 = 2047 := by
    rw [← toNat_unpackExponent, ← BitVec.toNat_inj]
    rfl
  have least : unpackExponent bits = 0#11 ↔ bits.toNat / hiddenBit % 2048 = 0 := by
    rw [← toNat_unpackExponent, ← BitVec.toNat_inj]
    rfl
  have blank : unpackMantissa bits = 0#52 ↔ bits.toNat % hiddenBit = 0 := by
    rw [← toNat_unpackMantissa, ← BitVec.toNat_inj]
    rfl
  fun_cases UnpackedFloat.unpack .binary64 bits with
  | case1 mantissa exponent unbiased sign special empty =>
      rw [ofBits, if_pos (top.mp special), if_pos (blank.mp empty), ← negative_unpackSign]
      rfl
  | case2 mantissa exponent special empty =>
      rw [ofBits, if_pos (top.mp special), if_neg (mt blank.mpr empty)]
      rfl
  | case3 mantissa exponent unbiased sign special zero empty =>
      rw [ofBits, if_neg (mt top.mpr special), if_pos (least.mp zero), blank.mp empty,
        ← negative_unpackSign]
      rfl
  | case4 mantissa exponent unbiased sign signed special zero empty =>
      have smallest : (unbiased + 1 + 1074).toNat = 0 := by
        change ((exponent.toNat : Int) - (1023 + 52) + 1 + 1074).toNat = 0
        rw [zero]
        rfl
      rw [ofBits, if_neg (mt top.mpr special), if_pos (least.mp zero), ofUnpacked, smallest,
        toNat_unpackMantissa, ← negative_unpackSign]
  | case5 mantissa exponent unbiased sign signed special positive =>
      have shifted : (unbiased + 1074).toNat = bits.toNat / hiddenBit % 2048 - 1 := by
        rw [← toNat_unpackExponent]
        change ((exponent.toNat : Int) - (1023 + 52) + 1074).toNat = exponent.toNat - 1
        omega
      rw [ofBits, if_neg (mt top.mpr special), if_neg (mt least.mpr positive), ofUnpacked, shifted,
        toNat_hidden_append, toNat_unpackMantissa, ← negative_unpackSign, Nat.add_comm]
      rfl

end Bits

theorem ofFloat_eq_ofUnpacked (number : Float) : ofFloat number = ofUnpacked (unpacked number) :=
  ofBits_toNat _

section Whole

variable {number : Nat}

theorem shortest_of_surrounds {mantissa exponent places : Nat} (total : exponent + places = 1076)
    (fraction : 0 < places) (surrounds : Window.Surrounds (window mantissa exponent (5 ^ places)) number places)
    (enough : places ≤ (window mantissa exponent (5 ^ places)).powerAbove) :
    ∃ zeros : Nat, 10 ^ zeros ∣ number ∧
      shortest mantissa exponent = ⟨number / 10 ^ zeros, zeros⟩ := by
  have above : 1076 - exponent = places := by omega
  have none : exponent - 1076 = 0 := by omega
  have unit : Nat.pow 5 places * Nat.pow 2 0 = 5 ^ places := Nat.mul_one _
  obtain ⟨extra, power⟩ := Nat.exists_eq_add_of_le enough
  obtain ⟨zeros, divides, coarsest⟩ := Window.coarsest_of_surrounds surrounds fraction extra
  rw [← power] at coarsest
  refine ⟨zeros, divides, ?_⟩
  have exponents : ((places + zeros : Nat) : Int) - places = zeros := by omega
  simp only [shortest, above, none, unit, coarsest, exponents]

/-- Only the greatest of these numbers has its upper end on the next whole number, and that one is
even. -/
theorem surrounds_whole (positive : 0 < number) (exact : number ≤ greatestExact) :
    Window.Surrounds (window (wholeMantissa number) (number.log2 + 1022) (5 ^ (54 - number.log2)))
      number (54 - number.log2) := by
  by_cases greatest : number = 2 ^ 53
  · subst greatest
    exact ⟨by decide +kernel, by decide +kernel, by decide +kernel, by decide +kernel,
      .inr (by decide +kernel)⟩
  · have short : number.log2 ≤ 52 :=
      Nat.lt_succ_iff.mp ((Nat.log2_lt (Nat.ne_of_gt positive)).mpr
        (Nat.lt_of_le_of_ne exact greatest))
    have lower := wholeMantissa_lower positive exact
    have fives : 0 < 5 ^ (54 - number.log2) := Nat.pow_pos (by decide)
    have tens : 4 * 5 ^ (54 - number.log2) ≤ 10 ^ (54 - number.log2) := by
      rw [show 10 = 2 * 5 from rfl, Nat.mul_pow]
      have powers : 2 ^ 2 ≤ 2 ^ (54 - number.log2) := Nat.pow_le_pow_right (by decide) (by omega)
      exact Nat.mul_le_mul_right _ powers
    have quadruple : 4 * wholeMantissa number = number * 2 ^ (54 - number.log2) := by
      apply Nat.eq_of_mul_eq_mul_right (Nat.two_pow_pos number.log2)
      rw [Nat.mul_assoc, wholeMantissa_mul positive exact, Nat.mul_assoc number, ← Nat.pow_add,
        Nat.sub_add_cancel (by omega)]
      omega
    have value : 4 * wholeMantissa number * 5 ^ (54 - number.log2) =
        number * 10 ^ (54 - number.log2) := by
      rw [quadruple, Nat.mul_assoc, ← Nat.mul_pow]
    constructor
    · exact value
    · simp only [window]
      exact Nat.mul_lt_mul_of_pos_right (by split <;> omega) fives
    · exact Nat.mul_lt_mul_of_pos_right (by omega) fives
    · simp only [window]
      rw [← Nat.sub_mul]
      split
      · rw [Nat.sub_sub_self (by omega)]
        omega
      · rw [Nat.sub_sub_self (by omega)]
        omega
    · left
      simp only [window]
      rw [← Nat.sub_mul, Nat.add_sub_cancel_left]
      omega

theorem places_le_powerAbove (positive : 0 < number) (exact : number ≤ greatestExact) :
    54 - number.log2 ≤
      (window (wholeMantissa number) (number.log2 + 1022) (5 ^ (54 - number.log2))).powerAbove := by
  have surrounds := surrounds_whole positive exact
  have reaches : 2 ^ 54 * 5 ^ (54 - number.log2) ≤
      (window (wholeMantissa number) (number.log2 + 1022) (5 ^ (54 - number.log2))).high := by
    have lower := wholeMantissa_lower positive exact
    exact Nat.mul_le_mul_right _ (by omega)
  have digits : 54 + (5 ^ (54 - number.log2)).log2 ≤
      (window (wholeMantissa number) (number.log2 + 1022) (5 ^ (54 - number.log2))).high.log2 := by
    have fives : 5 ^ (54 - number.log2) ≠ 0 := Nat.ne_of_gt (Nat.pow_pos (by decide))
    rw [Nat.le_log2 (Nat.ne_zero_of_lt surrounds.high), Nat.pow_add]
    exact Nat.le_trans (Nat.mul_le_mul_left _ (Nat.log2_self_le fives)) reaches
  have table : ∀ places < 55, places ≤ (54 + (5 ^ places).log2) * 28 / 93 + 2 := by
    decide +kernel
  have enough := table (54 - number.log2) (by omega)
  rw [Window.powerAbove]
  omega

theorem shortest_whole (positive : 0 < number) (exact : number ≤ greatestExact) :
    ∃ zeros : Nat, 10 ^ zeros ∣ number ∧
      shortest (wholeMantissa number) (number.log2 + 1022) = ⟨number / 10 ^ zeros, zeros⟩ := by
  have short := log2_le_of_exact exact
  have total : number.log2 + 1022 + (54 - number.log2) = 1076 := by omega
  exact shortest_of_surrounds total (by omega) (surrounds_whole positive exact)
    (places_le_powerAbove positive exact)

theorem positional_decimal_whole (positive : 0 < number) (exact : number ≤ greatestExact) :
    (decimal (wholeMantissa number) (number.log2 + 1022)).positional = decimalDigits number := by
  have nonzero : wholeMantissa number ≠ 0 := by
    have := wholeMantissa_lower positive exact
    omega
  obtain ⟨zeros, ⟨digits, rfl⟩, form⟩ := shortest_whole positive exact
  have digitsPositive : 0 < digits := Nat.pos_of_ne_zero (by rintro rfl; simp at positive)
  have quotient : 10 ^ zeros * digits / 10 ^ zeros = digits :=
    Nat.mul_div_cancel_left _ (Nat.pow_pos (by decide))
  rw [decimal, if_neg nonzero, form, quotient, Nat.mul_comm, decimalDigits_mul_pow digitsPositive]
  rfl

end Whole

/-- As `integerText`, but a positive integer gets a plus sign. -/
def signedText (integer : Int) : List Char :=
  if 0 < integer then '+' :: integerText integer else integerText integer

theorem integerText_of_negative {integer : Int} (negative : integer < 0) :
    integerText integer = '-' :: decimalDigits integer.natAbs := by
  cases integer with
  | ofNat natural => exact absurd negative (Int.not_lt.mpr (Int.natCast_nonneg natural))
  | negSucc natural => rfl

theorem integerText_of_nonneg {integer : Int} (nonneg : 0 ≤ integer) :
    integerText integer = decimalDigits integer.natAbs := by
  cases integer with
  | ofNat natural => rfl
  | negSucc natural => exact absurd nonneg (Int.not_le.mpr (Int.negSucc_lt_zero natural))

theorem plain_finite (negative : Bool) (mantissa exponent : Nat) :
    (finite negative mantissa exponent).plain =
      if negative then '-' :: (decimal mantissa exponent).positional
      else (decimal mantissa exponent).positional := rfl

theorem signed_finite (negative : Bool) (mantissa exponent : Nat) :
    (finite negative mantissa exponent).signed =
      if negative then (finite negative mantissa exponent).plain
      else '+' :: (finite negative mantissa exponent).plain := rfl

namespace Represents

variable {number : Float} {integer : Int}

theorem ofFloat_eq (represents : Represents number integer) (nonzero : integer ≠ 0) :
    ofFloat number =
      .finite (integer < 0) (wholeMantissa integer.natAbs) (integer.natAbs.log2 + 1022) := by
  obtain ⟨exact, sign, signed, form⟩ := represents
  obtain ⟨_, finite⟩ := whole_of_positive sign (Int.natAbs_pos.mpr nonzero) exact
  have negated : negative sign = decide (integer < 0) := by
    rw [sign_eq nonzero signed, signOf]
    split
    · rename_i below
      exact (decide_eq_true below).symm
    · rename_i above
      exact (decide_eq_false above).symm
  have exponent : ((integer.natAbs.log2 : Int) - 52 + 1074).toNat = integer.natAbs.log2 + 1022 := by
    omega
  rw [ofFloat_eq_ofUnpacked, form, finite, ofUnpacked, negated, exponent]

theorem plain_eq (represents : Represents number integer) (nonzero : integer ≠ 0) :
    (ofFloat number).plain = integerText integer := by
  rw [represents.ofFloat_eq nonzero, plain_finite,
    positional_decimal_whole (Int.natAbs_pos.mpr nonzero) represents.exact]
  by_cases below : integer < 0
  · rw [integerText_of_negative below, if_pos (decide_eq_true below)]
  · rw [integerText_of_nonneg (Int.not_lt.mp below), if_neg (by simpa using below)]

theorem signed_eq (represents : Represents number integer) (nonzero : integer ≠ 0) :
    (ofFloat number).signed = signedText integer := by
  have unsigned := represents.plain_eq nonzero
  rw [represents.ofFloat_eq nonzero] at unsigned ⊢
  rw [signed_finite, unsigned, signedText]
  by_cases below : integer < 0
  · rw [if_pos (decide_eq_true below), if_neg (Int.not_lt.mpr (Int.le_of_lt below))]
  · have above : 0 < integer := by omega
    rw [if_neg (by simpa using below), if_pos above]

end Represents

end LongDivision.Binary64
