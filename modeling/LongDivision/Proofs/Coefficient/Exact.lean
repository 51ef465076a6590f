import LongDivision.Coefficient.Binary64
import LongDivision.Proofs.Coefficient.Whole

/-! Integers as floating-point numbers. Sums, products and quotients are exact as long as they are
again integers up to `2 ^ 53`.
-/

namespace LongDivision.Binary64

open Float.Model Float.Model.UnpackedFloat

section Operations

variable {left right : Nat} {leftSign rightSign : Sign}

theorem neg_whole (sign : Sign) (number : Nat) : (whole sign number).neg = whole (-sign) number := by
  unfold whole
  split <;> rfl

/-- Aligned to a common exponent, whole numbers are multiples of one unit. -/
theorem aligned {sign : Sign} {natural : Nat} {integer : Int} (shift : Nat) (positive : 0 < natural)
    (exact : natural ≤ greatestExact) (signed : sign.apply natural = integer)
    (fine : shift ≤ natural.log2) :
    sign.apply
        (wholeMantissa natural <<< ((natural.log2 : Int) - 52 - (shift - 52)).toNat : Nat) *
      2 ^ shift = integer * 2 ^ 52 := by
  have amount : ((natural.log2 : Int) - 52 - (shift - 52)).toNat = natural.log2 - shift := by
    omega
  have product : wholeMantissa natural * 2 ^ (natural.log2 - shift) * 2 ^ shift =
      natural * 2 ^ 52 := by
    rw [Nat.mul_assoc, ← Nat.pow_add, Nat.sub_add_cancel fine, wholeMantissa_mul positive exact]
  rw [amount, Nat.shiftLeft_eq, ← signed]
  cases sign with
  | positive =>
      simp only [Sign.apply]
      exact_mod_cast product
  | negative =>
      simp only [Sign.apply, Int.neg_mul, neg_inj]
      exact_mod_cast product

theorem add_whole {first second : Int} (leftSigned : leftSign.apply first.natAbs = first)
    (rightSigned : rightSign.apply second.natAbs = second) (leftNonzero : first ≠ 0)
    (rightNonzero : second ≠ 0) (leftExact : first.natAbs ≤ greatestExact)
    (rightExact : second.natAbs ≤ greatestExact) (exact : (first + second).natAbs ≤ greatestExact) :
    UnpackedFloat.add .binary64 (whole leftSign first.natAbs) (whole rightSign second.natAbs) =
      whole (signOf (first + second)) (first + second).natAbs := by
  have leftPositive := Int.natAbs_pos.mpr leftNonzero
  have rightPositive := Int.natAbs_pos.mpr rightNonzero
  obtain ⟨_, leftFinite⟩ := whole_of_positive leftSign leftPositive leftExact
  obtain ⟨_, rightFinite⟩ := whole_of_positive rightSign rightPositive rightExact
  have unit : min ((first.natAbs.log2 : Int) - 52) (second.natAbs.log2 - 52) =
      (min first.natAbs.log2 second.natAbs.log2 : Nat) - 52 := by omega
  have leftAligned := aligned (min first.natAbs.log2 second.natAbs.log2) leftPositive leftExact
    leftSigned (Nat.min_le_left _ _)
  have rightAligned := aligned (min first.natAbs.log2 second.natAbs.log2) rightPositive rightExact
    rightSigned (Nat.min_le_right _ _)
  rw [leftFinite, rightFinite, UnpackedFloat.add, unit]
  apply normalize_of_value exact
  rw [Int.add_mul, leftAligned, rightAligned, Int.add_mul]

theorem apply_mul_apply (left right : Sign) (first second : Int) :
    (left * right).apply (first * second) = left.apply first * right.apply second := by
  cases left with
  | positive =>
      cases right with
      | positive => rfl
      | negative => exact (Int.mul_neg first second).symm
  | negative =>
      cases right with
      | positive => exact (Int.neg_mul first second).symm
      | negative => exact (Int.neg_mul_neg first second).symm

theorem mul_whole (leftExact : left ≤ greatestExact) (rightExact : right ≤ greatestExact)
    (exact : left * right ≤ greatestExact) :
    UnpackedFloat.mul .binary64 (whole leftSign left) (whole rightSign right) =
      whole (leftSign * rightSign) (left * right) := by
  rcases Nat.eq_zero_or_pos left with rfl | leftPositive
  · rw [Nat.zero_mul, whole_zero, whole_zero]
    rcases Nat.eq_zero_or_pos right with rfl | rightPositive
    · rfl
    · obtain ⟨_, finite⟩ := whole_of_positive rightSign rightPositive rightExact
      rw [finite]
      rfl
  · obtain ⟨_, leftFinite⟩ := whole_of_positive leftSign leftPositive leftExact
    rcases Nat.eq_zero_or_pos right with rfl | rightPositive
    · rw [Nat.mul_zero, whole_zero, whole_zero, leftFinite]
      rfl
    · obtain ⟨_, rightFinite⟩ := whole_of_positive rightSign rightPositive rightExact
      have positive := Nat.mul_pos leftPositive rightPositive
      have value : wholeMantissa left * wholeMantissa right * 2 ^ (left.log2 + right.log2) =
          left * right * 2 ^ 104 := by
        calc wholeMantissa left * wholeMantissa right * 2 ^ (left.log2 + right.log2)
            = wholeMantissa left * 2 ^ left.log2 * (wholeMantissa right * 2 ^ right.log2) := by
              rw [Nat.pow_add]
              ring
          _ = left * right * 2 ^ 104 := by
              rw [wholeMantissa_mul leftPositive leftExact,
                wholeMantissa_mul rightPositive rightExact]
              ring
      have digits : left.log2 + right.log2 ≤ (left * right).log2 := by
        rw [Nat.le_log2 (Nat.ne_of_gt positive), Nat.pow_add]
        exact Nat.mul_le_mul (Nat.log2_self_le (Nat.ne_of_gt leftPositive))
          (Nat.log2_self_le (Nat.ne_of_gt rightPositive))
      have exponents : (left.log2 : Int) - 52 + (right.log2 - 52) =
          (left.log2 + right.log2 : Nat) - (104 : Nat) := by omega
      rw [leftFinite, rightFinite, UnpackedFloat.mul, exponents]
      exact roundWithAccuracy_of_value _ positive exact value (by decide) (by omega)

theorem divCore_wholeMantissa {quotient divisor : Nat} (positive : 0 < quotient)
    (divisorPositive : 0 < divisor) (exact : quotient * divisor ≤ greatestExact)
    (divisorExact : divisor ≤ greatestExact) :
    divCore .binary64 (wholeMantissa (quotient * divisor)) ((quotient * divisor).log2 - 52)
        (wholeMantissa divisor) (divisor.log2 - 52) =
      (quotient * 2 ^ (53 + divisor.log2 - (quotient * divisor).log2),
        ((quotient * divisor).log2 : Int) - (53 + divisor.log2 : Nat), .exact) := by
  have dividendPositive := Nat.mul_pos positive divisorPositive
  have short := log2_le_of_exact exact
  have mantissaPositive : 0 < wholeMantissa divisor :=
    Nat.lt_of_lt_of_le (by decide) (wholeMantissa_lower divisorPositive divisorExact)
  have digits : (wholeMantissa (quotient * divisor)).log2 = 52 :=
    log2_of_hidden (wholeMantissa_lower dividendPositive exact)
      (wholeMantissa_upper dividendPositive exact)
  have divisorDigits : (wholeMantissa divisor).log2 = 52 :=
    log2_of_hidden (wholeMantissa_lower divisorPositive divisorExact)
      (wholeMantissa_upper divisorPositive divisorExact)
  have target : min (((quotient * divisor).log2 : Int) - 52 - (divisor.log2 - 52))
      (Format.binary64.targetExponent
        (totalExponent (wholeMantissa (quotient * divisor)) ((quotient * divisor).log2 - 52) -
          totalExponent (wholeMantissa divisor) (divisor.log2 - 52))) =
      ((quotient * divisor).log2 : Int) - (53 + divisor.log2 : Nat) := by
    have divisorShort := log2_le_of_exact divisorExact
    rw [totalExponent, totalExponent, digits, divisorDigits]
    change min _ (max (_ - 53) (-1074)) = _
    omega
  have amount : (((quotient * divisor).log2 : Int) - 52 - (divisor.log2 - 52) -
      (((quotient * divisor).log2 : Int) - (53 + divisor.log2 : Nat))).toNat = 53 := by
    omega
  -- Both sides times the power of two that the dividend's mantissa was divided by.
  have multiple : wholeMantissa (quotient * divisor) * 2 ^ 53 =
      quotient * 2 ^ (53 + divisor.log2 - (quotient * divisor).log2) * wholeMantissa divisor := by
    apply Nat.eq_of_mul_eq_mul_right (Nat.two_pow_pos (quotient * divisor).log2)
    calc wholeMantissa (quotient * divisor) * 2 ^ 53 * 2 ^ (quotient * divisor).log2
        = wholeMantissa (quotient * divisor) * 2 ^ (quotient * divisor).log2 * 2 ^ 53 := by ring
      _ = quotient * (divisor * 2 ^ 52) * 2 ^ 53 := by
          rw [wholeMantissa_mul dividendPositive exact, Nat.mul_assoc quotient]
      _ = quotient * wholeMantissa divisor * 2 ^ (53 + divisor.log2) := by
          rw [← wholeMantissa_mul divisorPositive divisorExact, Nat.pow_add]
          ring
      _ = quotient * wholeMantissa divisor *
            (2 ^ (53 + divisor.log2 - (quotient * divisor).log2) *
              2 ^ (quotient * divisor).log2) := by
          rw [← Nat.pow_add, Nat.sub_add_cancel (by omega)]
      _ = _ := by ring
  simp only [divCore, target, amount, Nat.shiftLeft_eq]
  rw [multiple, Nat.mul_div_cancel _ mantissaPositive, Nat.mul_mod_left]
  rfl

theorem div_whole {quotient divisor : Nat} (divisorPositive : 0 < divisor)
    (exact : quotient * divisor ≤ greatestExact) (divisorExact : divisor ≤ greatestExact) :
    UnpackedFloat.div .binary64 (whole leftSign (quotient * divisor)) (whole rightSign divisor) =
      whole (leftSign / rightSign) quotient := by
  obtain ⟨_, divisorFinite⟩ := whole_of_positive rightSign divisorPositive divisorExact
  rcases Nat.eq_zero_or_pos quotient with rfl | positive
  · rw [Nat.zero_mul, whole_zero, whole_zero, divisorFinite]
    rfl
  · have dividendPositive := Nat.mul_pos positive divisorPositive
    obtain ⟨_, dividendFinite⟩ := whole_of_positive leftSign dividendPositive exact
    have short := log2_le_of_exact exact
    have quotientExact : quotient ≤ greatestExact :=
      Nat.le_trans (Nat.le_mul_of_pos_right _ divisorPositive) exact
    have value : quotient * 2 ^ (53 + divisor.log2 - (quotient * divisor).log2) *
        2 ^ (quotient * divisor).log2 = quotient * 2 ^ (53 + divisor.log2) := by
      rw [Nat.mul_assoc, ← Nat.pow_add, Nat.sub_add_cancel (by omega)]
    have digits : (quotient * divisor).log2 ≤ quotient.log2 + divisor.log2 + 1 := by
      rw [← Nat.lt_succ_iff, Nat.log2_lt (Nat.ne_of_gt dividendPositive)]
      calc quotient * divisor < 2 ^ (quotient.log2 + 1) * 2 ^ (divisor.log2 + 1) :=
            Nat.mul_lt_mul'' Nat.lt_log2_self Nat.lt_log2_self
        _ = 2 ^ (quotient.log2 + divisor.log2 + 1 + 1) := by
            rw [← Nat.pow_add]
            congr 1
            omega
    rw [dividendFinite, divisorFinite, UnpackedFloat.div,
      divCore_wholeMantissa positive divisorPositive exact divisorExact]
    exact roundWithAccuracy_of_value _ positive quotientExact value (by omega) (by omega)

end Operations

/-- The integer that a whole floating-point number is. Zero may have either sign. -/
structure Represents (number : Float) (integer : Int) : Prop where
  exact : integer.natAbs ≤ greatestExact
  form : ∃ sign, sign.apply integer.natAbs = integer ∧ unpacked number = whole sign integer.natAbs

namespace Represents

variable {left right number : Float} {integer first second : Int}

theorem zero : Represents 0 0 := by
  exact ⟨by decide, .positive, rfl, rfl⟩

theorem sign_eq {sign : Sign} (nonzero : integer ≠ 0)
    (signed : sign.apply integer.natAbs = integer) : sign = signOf integer := by
  cases sign with
  | negative =>
      simp only [Sign.apply] at signed
      rw [signOf, if_pos (by omega)]
  | positive =>
      simp only [Sign.apply] at signed
      rw [signOf, if_neg (by omega)]

/-- A whole number is zero exactly when the integer is. -/
theorem beq_zero (represents : Represents number integer) :
    (number == 0) = decide (integer = 0) := by
  obtain ⟨exact, sign, signed, form⟩ := represents
  have equal : (number == 0) = (unpacked number).beq (.zero .positive) := rfl
  rw [equal, form]
  by_cases zero : integer = 0
  · subst zero
    simp only [Int.natAbs_zero, whole_zero, decide_true]
    cases sign <;> rfl
  · obtain ⟨nonzero, finite⟩ := whole_of_positive sign (by omega) exact
    rw [finite, decide_eq_false zero]
    cases sign <;> rfl

theorem unique_of_nonzero (nonzero : integer ≠ 0) (leftRepresents : Represents left integer)
    (rightRepresents : Represents right integer) : left = right := by
  obtain ⟨_, leftSign, leftSigned, leftForm⟩ := leftRepresents
  obtain ⟨_, rightSign, rightSigned, rightForm⟩ := rightRepresents
  rw [sign_eq nonzero leftSigned] at leftForm
  rw [sign_eq nonzero rightSigned] at rightForm
  rw [← ofModel_pack_unpacked left, ← ofModel_pack_unpacked right, leftForm, rightForm]

theorem of_packed {result : UnpackedFloat} (sign : Sign)
    (packed : number = Float.ofModel (Float.Model.pack result))
    (exact : integer.natAbs ≤ greatestExact) (signed : sign.apply integer.natAbs = integer)
    (form : result = whole sign integer.natAbs) : Represents number integer := by
  rw [form] at packed
  exact ⟨exact, sign, signed, unpacked_of_eq_whole exact packed⟩

theorem add (leftRepresents : Represents left first) (rightRepresents : Represents right second)
    (exact : (first + second).natAbs ≤ greatestExact) :
    Represents (left + right) (first + second) := by
  obtain ⟨leftExact, leftSign, leftSigned, leftForm⟩ := leftRepresents
  obtain ⟨rightExact, rightSign, rightSigned, rightForm⟩ := rightRepresents
  have sum : left + right = Float.ofModel (Float.Model.pack
      (UnpackedFloat.add .binary64 (unpacked left) (unpacked right))) := rfl
  rw [leftForm, rightForm] at sum
  by_cases leftZero : first = 0
  · subst leftZero
    rw [Int.zero_add] at exact ⊢
    by_cases rightZero : second = 0
    · subst rightZero
      cases leftSign <;> cases rightSign
      · exact of_packed .negative sum exact rfl rfl
      · exact of_packed .positive sum exact rfl rfl
      · exact of_packed .positive sum exact rfl rfl
      · exact of_packed .positive sum exact rfl rfl
    · obtain ⟨_, finite⟩ := whole_of_positive rightSign (Int.natAbs_pos.mpr rightZero) rightExact
      refine of_packed rightSign sum exact rightSigned ?_
      rw [Int.natAbs_zero, whole_zero, finite]
      rfl
  · by_cases rightZero : second = 0
    · subst rightZero
      obtain ⟨_, finite⟩ := whole_of_positive leftSign (Int.natAbs_pos.mpr leftZero) leftExact
      rw [Int.add_zero] at exact ⊢
      refine of_packed leftSign sum exact leftSigned ?_
      rw [Int.natAbs_zero, whole_zero, finite]
      rfl
    · exact of_packed _ sum exact (apply_signOf _) (add_whole leftSigned rightSigned leftZero
        rightZero leftExact rightExact exact)

theorem mul (leftRepresents : Represents left first) (rightRepresents : Represents right second)
    (exact : (first * second).natAbs ≤ greatestExact) :
    Represents (left * right) (first * second) := by
  obtain ⟨leftExact, leftSign, leftSigned, leftForm⟩ := leftRepresents
  obtain ⟨rightExact, rightSign, rightSigned, rightForm⟩ := rightRepresents
  have product : left * right = Float.ofModel (Float.Model.pack
      (UnpackedFloat.mul .binary64 (unpacked left) (unpacked right))) := rfl
  have signed : (leftSign * rightSign).apply (first * second).natAbs = first * second := by
    rw [Int.natAbs_mul, Int.natCast_mul, apply_mul_apply, leftSigned, rightSigned]
  refine of_packed _ product exact signed ?_
  rw [Int.natAbs_mul] at exact ⊢
  rw [leftForm, rightForm, mul_whole leftExact rightExact exact]

theorem div {quotient : Int} (leftRepresents : Represents left (quotient * second))
    (rightRepresents : Represents right second) (nonzero : second ≠ 0) :
    Represents (left / right) quotient := by
  obtain ⟨leftExact, leftSign, leftSigned, leftForm⟩ := leftRepresents
  obtain ⟨rightExact, rightSign, rightSigned, rightForm⟩ := rightRepresents
  have ratio : left / right = Float.ofModel (Float.Model.pack
      (UnpackedFloat.div .binary64 (unpacked left) (unpacked right))) := rfl
  rw [Int.natAbs_mul] at leftExact leftForm
  have positive : 0 < second.natAbs := Int.natAbs_pos.mpr nonzero
  -- An exact quotient is never larger than the dividend.
  have exact : quotient.natAbs ≤ greatestExact :=
    Nat.le_trans (Nat.le_mul_of_pos_right _ positive) leftExact
  have signed : (leftSign / rightSign).apply quotient.natAbs = quotient := by
    apply Int.eq_of_mul_eq_mul_right nonzero
    have signs : leftSign / rightSign * rightSign = leftSign := by
      cases leftSign <;> cases rightSign <;> rfl
    calc (leftSign / rightSign).apply quotient.natAbs * second
        = (leftSign / rightSign).apply quotient.natAbs * rightSign.apply second.natAbs := by
          rw [rightSigned]
      _ = leftSign.apply (quotient.natAbs * second.natAbs : Int) := by
          rw [← apply_mul_apply, signs]
      _ = quotient * second := by
          rw [← Int.natCast_mul, ← Int.natAbs_mul, leftSigned]
  refine of_packed _ ratio exact signed ?_
  rw [leftForm, rightForm, div_whole positive leftExact rightExact]

theorem one : Represents 1 1 :=
  ⟨by decide, .positive, rfl, rfl⟩

theorem neg (represents : Represents number integer) : Represents (-number) (-integer) := by
  obtain ⟨exact, sign, signed, form⟩ := represents
  have negated : -number = Float.ofModel (Float.Model.pack (unpacked number).neg) := rfl
  have opposite : (-sign).apply (-integer).natAbs = -integer := by
    rw [Int.natAbs_neg]
    conv => rhs; rw [← signed]
    cases sign with
    | positive => rfl
    | negative => exact (Int.neg_neg _).symm
  refine of_packed (-sign) negated (by rwa [Int.natAbs_neg]) opposite ?_
  rw [form, Int.natAbs_neg, neg_whole]

theorem ofNat {natural : Nat} (exact : natural ≤ greatestExact) :
    Represents (Float.ofNat natural) natural := by
  by_cases fast : natural < 2 ^ 53
  · have converted : Represents natural.toUInt64.toFloat natural := by
      have packed : natural.toUInt64.toFloat = Float.ofModel (Float.Model.pack
        (UnpackedFloat.ofUInt64 .binary64 natural.toUInt64)) := rfl
      have word : natural.toUInt64.toNat = natural :=
        Nat.mod_eq_of_lt (Nat.lt_trans fast (by decide))
      have normalized : UnpackedFloat.normalize .binary64 natural ((52 : Nat) - 52) .positive =
          whole (signOf natural) natural := normalize_of_value exact rfl
      refine of_packed _ packed exact (apply_signOf _) ?_
      rw [UnpackedFloat.ofUInt64, word]
      exact normalized
    have scaled : Float.ofNat natural = natural.toUInt64.toFloat * 1 := by
      change Float.ofScientific natural false 0 = _
      rw [Float.ofScientific, dif_pos ⟨fast, by decide⟩]
      rfl
    have product := converted.mul one (by rwa [Int.mul_one])
    rwa [Int.mul_one, ← scaled] at product
  · have greatest : natural = 2 ^ 53 := Nat.le_antisymm exact (Nat.le_of_not_lt fast)
    subst greatest
    exact ⟨exact, .positive, rfl, rfl⟩

theorem intCast {integer : Int} (exact : integer.natAbs ≤ greatestExact) :
    Represents integer integer := by
  cases integer with
  | ofNat natural => exact ofNat exact
  | negSucc natural => exact (ofNat exact).neg

/-- A whole number other than zero is the one that its integer is converted to. -/
theorem eq_intCast (represents : Represents number integer) (nonzero : (number == 0) = false) :
    number = integer := by
  rw [represents.beq_zero, decide_eq_false_iff_not] at nonzero
  exact unique_of_nonzero nonzero represents (intCast represents.exact)

end Represents

end LongDivision.Binary64
