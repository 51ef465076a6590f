import LongDivision.Proofs.Coefficient.Integer
import LongDivision.Proofs.Coefficient.Special

/-! Sums that stay within a power of two. A number that exceeds the power by less than half a step
is rounded down to it, so that small numbers can be added any number of times.
-/

namespace LongDivision.Binary64

open Float.Model Float.Model.UnpackedFloat

section Shifts

variable {mantissa shift : Nat}

theorem mantissa_shiftRight (extended : ExtendedMantissa) (shift : Nat) :
    (extended >>> shift).mantissa = extended.mantissa / 2 ^ shift := by
  induction shift with
  | zero => exact (Nat.div_one _).symm
  | succ shift ih =>
      change (extended >>> shift).mantissa / 2 = _
      rw [ih, Nat.div_div_eq_div_mul, Nat.pow_succ]

/-- The round bit is clear if less than half a unit is shifted out. -/
theorem roundBit_shiftRight (below : 2 * (mantissa % 2 ^ shift) < 2 ^ shift) :
    ((ExtendedMantissa.mk mantissa false false) >>> shift).roundBit = false := by
  cases shift with
  | zero => rfl
  | succ shift =>
      change (((ExtendedMantissa.mk mantissa false false) >>> shift).mantissa % 2 != 0) = false
      rw [mantissa_shiftRight]
      rw [Nat.mod_pow_succ, Nat.pow_succ] at below
      have even : mantissa / 2 ^ shift % 2 = 0 := by
        by_contra odd
        have one : mantissa / 2 ^ shift % 2 = 1 := by omega
        rw [one] at below
        omega
      rw [even]
      rfl

theorem roundedMantissa_of_roundBit {extended : ExtendedMantissa}
    (clear : extended.roundBit = false) : extended.roundedMantissa = extended.mantissa := by
  obtain ⟨mantissa, round, sticky⟩ := extended
  dsimp only at clear
  subst clear
  cases sticky <;> rfl

theorem roundedMantissa_bounds (extended : ExtendedMantissa) :
    extended.mantissa ≤ extended.roundedMantissa ∧
      extended.roundedMantissa ≤ extended.mantissa + 1 := by
  obtain ⟨mantissa, round, sticky⟩ := extended
  cases round with
  | false =>
      rw [roundedMantissa_of_roundBit rfl]
      exact ⟨Nat.le_refl _, Nat.le_succ _⟩
  | true =>
      cases sticky with
      | false =>
          change mantissa ≤ mantissa + mantissa % 2 ∧ mantissa + mantissa % 2 ≤ mantissa + 1
          omega
      | true => exact ⟨Nat.le_succ _, Nat.le_refl _⟩

end Shifts

section Rounding

variable {mantissa place power : Nat}

/-- The mantissa that is left after its last `shift` places are rounded off. -/
def roundedOff (mantissa shift : Nat) : Nat :=
  ((ExtendedMantissa.mk mantissa false false) >>> shift).roundedMantissa

/-- The place of the last digit that a rounded number keeps. -/
def lastPlace (mantissa place : Nat) : Nat :=
  mantissa.log2 + place - 52

theorem targetExponent_eq (mantissa place : Nat) :
    Format.binary64.targetExponent (totalExponent mantissa (place - 1074)) =
      (lastPlace mantissa place : Int) - 1074 := by
  change max ((mantissa.log2 : Int) + 1 + (place - 1074) - 53) (-1074) = _
  rw [lastPlace]
  omega

theorem roundedOff_le {shift : Nat} (short : mantissa.log2 ≤ 52 + shift) :
    roundedOff mantissa shift ≤ 2 ^ 53 := by
  have upper := (roundedMantissa_bounds ((ExtendedMantissa.mk mantissa false false) >>> shift)).2
  have quotient : mantissa / 2 ^ shift < 2 ^ 53 := by
    rw [Nat.div_lt_iff_lt_mul (Nat.two_pow_pos shift), ← Nat.pow_add]
    exact Nat.lt_of_lt_of_le Nat.lt_log2_self (Nat.pow_le_pow_right (by decide) (by omega))
  rw [mantissa_shiftRight] at upper
  rw [roundedOff]
  exact Nat.le_trans upper quotient

theorem le_quotient {shift : Nat} (positive : 0 < mantissa) (long : 52 + shift ≤ mantissa.log2) :
    2 ^ 52 ≤ mantissa / 2 ^ shift := by
  rw [Nat.le_div_iff_mul_le (Nat.two_pow_pos shift), ← Nat.pow_add]
  exact Nat.le_trans (Nat.pow_le_pow_right (by decide) long)
    (Nat.log2_self_le (Nat.ne_of_gt positive))

theorem le_roundedOff {shift : Nat} (positive : 0 < mantissa) (long : 52 + shift ≤ mantissa.log2) :
    2 ^ 52 ≤ roundedOff mantissa shift := by
  have lower := (roundedMantissa_bounds ((ExtendedMantissa.mk mantissa false false) >>> shift)).1
  rw [mantissa_shiftRight] at lower
  exact Nat.le_trans (le_quotient positive long) lower

/-- Less than half a step above a power of two, rounding goes down. -/
theorem roundedOff_of_near {shift : Nat} (positive : 0 < mantissa)
    (long : 52 + shift ≤ mantissa.log2) (near : 2 * mantissa < (2 ^ 53 + 1) * 2 ^ shift) :
    roundedOff mantissa shift = 2 ^ 52 := by
  have lower := le_quotient positive long
  have split := Nat.div_add_mod mantissa (2 ^ shift)
  have rest := Nat.mod_lt mantissa (Nat.two_pow_pos shift)
  have quotient : mantissa / 2 ^ shift = 2 ^ 52 := by
    apply Nat.le_antisymm _ lower
    rw [Nat.le_iff_lt_add_one, Nat.div_lt_iff_lt_mul (Nat.two_pow_pos shift)]
    have unit := Nat.two_pow_pos shift
    omega
  have below : 2 * (mantissa % 2 ^ shift) < 2 ^ shift := by
    rw [quotient] at split
    omega
  rw [roundedOff, roundedMantissa_of_roundBit (roundBit_shiftRight below), mantissa_shiftRight,
    quotient]

/-- A number that exceeds a power of two by less than half a step is rounded to at most that
power. -/
theorem roundedOff_mul_le {shift : Nat} (positive : 0 < mantissa)
    (last : lastPlace mantissa place = place + shift)
    (near : mantissa * 2 ^ place * 2 ^ 53 < 2 ^ power * (2 ^ 53 + 1)) (least : 53 ≤ power) :
    roundedOff mantissa shift * 2 ^ (place + shift) ≤ 2 ^ power := by
  rw [lastPlace] at last
  by_cases below : place + shift + 53 ≤ power
  · have short : roundedOff mantissa shift ≤ 2 ^ 53 := roundedOff_le (by omega)
    calc roundedOff mantissa shift * 2 ^ (place + shift)
        ≤ 2 ^ 53 * 2 ^ (place + shift) := Nat.mul_le_mul_right _ short
      _ = 2 ^ (place + shift + 53) := by rw [Nat.mul_comm, ← Nat.pow_add]
      _ ≤ 2 ^ power := Nat.pow_le_pow_right (by decide) below
  · have digits : mantissa.log2 + place = place + shift + 52 := by omega
    have reached : 2 ^ (mantissa.log2 + place) < 2 ^ (power + 1) := by
      apply Nat.lt_of_mul_lt_mul_right (a := 2 ^ 53)
      calc 2 ^ (mantissa.log2 + place) * 2 ^ 53 ≤ mantissa * 2 ^ place * 2 ^ 53 := by
            rw [Nat.pow_add]
            exact Nat.mul_le_mul_right _ (Nat.mul_le_mul_right _
              (Nat.log2_self_le (Nat.ne_of_gt positive)))
        _ < 2 ^ power * (2 ^ 53 + 1) := near
        _ ≤ 2 ^ power * (2 * 2 ^ 53) := Nat.mul_le_mul_left _ (by decide)
        _ = 2 ^ (power + 1) * 2 ^ 53 := by ring
    have above := (Nat.pow_lt_pow_iff_right (by decide)).mp reached
    obtain rfl : power = place + shift + 52 := by omega
    have halved : 2 * mantissa < (2 ^ 53 + 1) * 2 ^ shift := by
      apply Nat.lt_of_mul_lt_mul_right (a := 2 ^ 52 * 2 ^ place)
      calc 2 * mantissa * (2 ^ 52 * 2 ^ place) = mantissa * 2 ^ place * 2 ^ 53 := by ring
        _ < 2 ^ (place + shift + 52) * (2 ^ 53 + 1) := near
        _ = (2 ^ 53 + 1) * 2 ^ shift * (2 ^ 52 * 2 ^ place) := by ring
    rw [roundedOff_of_near positive (by omega) halved, Nat.mul_comm, ← Nat.pow_add]

end Rounding

/-- Zero, or a number of an absolute value of at most `bound / 2 ^ 1074`. -/
inductive AtMost (bound : Nat) : UnpackedFloat → Prop where
  | zero {sign : Sign} : AtMost bound (.zero sign)
  | finite {sign : Sign} {mantissa place : Nat} {positive : 0 < mantissa}
      (canonical : Canonical (.finite sign mantissa (place - 1074) positive))
      (le : mantissa * 2 ^ place ≤ bound) :
      AtMost bound (.finite sign mantissa (place - 1074) positive)

section Sums

variable {mantissa place power : Nat}

theorem AtMost.canonical {bound : Nat} {number : UnpackedFloat} (atMost : AtMost bound number) :
    Canonical number := by
  cases atMost with
  | zero => trivial
  | finite canonical le => exact canonical

theorem AtMost.neg {bound : Nat} {number : UnpackedFloat} (atMost : AtMost bound number) :
    AtMost bound number.neg := by
  cases atMost with
  | zero => exact .zero
  | finite canonical le => exact .finite (canonical_neg canonical) le

theorem AtMost.isFinite {bound : Nat} {number : UnpackedFloat} (atMost : AtMost bound number) :
    number.isFinite = true := by
  cases atMost with
  | zero => rfl
  | finite canonical le => rfl

theorem AtMost.weaken {bound other : Nat} {number : UnpackedFloat} (atMost : AtMost bound number)
    (weaker : bound ≤ other) : AtMost other number := by
  cases atMost with
  | zero => exact .zero
  | finite canonical le => exact .finite canonical (Nat.le_trans le weaker)

theorem shiftToTargetExponent_eq {shift : Nat} (last : lastPlace mantissa place = place + shift) :
    shiftToTargetExponent .binary64 mantissa (place - 1074) .exact =
      ((ExtendedMantissa.mk mantissa false false) >>> shift,
        ((place + shift : Nat) : Int) - 1074) := by
  have amount : (((place + shift : Nat) : Int) - 1074 - (place - 1074)).toNat = shift := by omega
  have exponent : (place : Int) - 1074 + shift = ((place + shift : Nat) : Int) - 1074 := by omega
  rw [shiftToTargetExponent, targetExponent_eq, last, shiftToExponent]
  simp only [amount, exponent, ExtendedMantissa.ofMantissaAndAccuracy]

theorem le_place_of_width {kept : Nat} (width : 2 ^ 52 ≤ kept)
    (bounded : kept * 2 ^ place ≤ 2 ^ power) : place + 52 ≤ power := by
  rw [← Nat.pow_le_pow_iff_right (a := 2) (by decide), Nat.pow_add, Nat.mul_comm]
  exact Nat.le_trans (Nat.mul_le_mul_right _ width) bounded

/-- What is rounded off may carry into one more digit. The last digit is then a zero and is left out
of the canonical form. -/
theorem canonical_roundedOff (sign : Sign) {shift : Nat} (positive : 0 < mantissa)
    (last : lastPlace mantissa place = place + shift)
    (bounded : roundedOff mantissa shift * 2 ^ (place + shift) ≤ 2 ^ power)
    (greatest : power ≤ 2097) :
    ∃ kept zeros, ∃ nonzero : 0 < kept, roundedOff mantissa shift = kept * 2 ^ zeros ∧
      Canonical (.finite sign kept ((place + shift + zeros : Nat) - 1074) nonzero) := by
  rw [lastPlace] at last
  have short : roundedOff mantissa shift ≤ 2 ^ 53 := roundedOff_le (by omega)
  by_cases carried : roundedOff mantissa shift = 2 ^ 53
  · rw [carried, ← Nat.pow_add] at bounded
    have reached := (Nat.pow_le_pow_iff_right (by decide)).mp bounded
    exact ⟨2 ^ 52, 1, by decide, carried, by decide, by omega, by omega, .inl (Nat.le_refl _)⟩
  · -- Full width unless no place was rounded off at all.
    have width : 2 ^ 52 ≤ roundedOff mantissa shift ∨
        (place + shift = 0 ∧ roundedOff mantissa shift = mantissa) := by
      by_cases long : 52 + shift ≤ mantissa.log2
      · exact .inl (le_roundedOff positive long)
      · obtain ⟨rfl, rfl⟩ : place = 0 ∧ shift = 0 := by omega
        exact .inr ⟨rfl, rfl⟩
    have whole : roundedOff mantissa shift = roundedOff mantissa shift * 2 ^ 0 :=
      (Nat.mul_one _).symm
    refine ⟨roundedOff mantissa shift, 0, by omega, whole, by omega, by omega, ?_, ?_⟩
    · rcases width with wide | ⟨none, _⟩
      · have := le_place_of_width wide bounded
        omega
      · omega
    · rcases width with wide | ⟨none, _⟩
      · exact .inl wide
      · exact .inr (by omega)

theorem roundWithAccuracy_of_roundedOff {sign : Sign} {shift kept zeros : Nat} {nonzero : 0 < kept}
    (last : lastPlace mantissa place = place + shift)
    (rounded : roundedOff mantissa shift = kept * 2 ^ zeros)
    (canonical : Canonical (.finite sign kept ((place + shift + zeros : Nat) - 1074) nonzero)) :
    roundWithAccuracy .binary64 sign mantissa (place - 1074) .exact =
      .finite sign kept ((place + shift + zeros : Nat) - 1074) nonzero := by
  have exponent : ((place + shift + zeros : Nat) : Int) - 1074 - zeros =
      ((place + shift : Nat) : Int) - 1074 := by omega
  have again := shiftToTargetExponent_of_multiple canonical zeros
  rw [roundedOff] at rounded
  rw [exponent] at again
  simp only [roundWithAccuracy, shiftToTargetExponent_eq last, rounded, again]
  rw [dif_neg (Nat.ne_of_gt nonzero)]

theorem atMost_roundWithAccuracy (sign : Sign) (positive : 0 < mantissa)
    (fine : place ≤ lastPlace mantissa place)
    (near : mantissa * 2 ^ place * 2 ^ 53 < 2 ^ power * (2 ^ 53 + 1)) (least : 53 ≤ power)
    (greatest : power ≤ 2097) :
    AtMost (2 ^ power) (roundWithAccuracy .binary64 sign mantissa (place - 1074) .exact) := by
  obtain ⟨shift, last⟩ := Nat.exists_eq_add_of_le fine
  have bounded := roundedOff_mul_le positive last near least
  obtain ⟨kept, zeros, nonzero, rounded, canonical⟩ :=
    canonical_roundedOff sign positive last bounded greatest
  rw [roundWithAccuracy_of_roundedOff last rounded canonical]
  refine .finite canonical ?_
  rwa [rounded, Nat.mul_assoc, ← Nat.pow_add, Nat.add_comm zeros] at bounded

theorem atMost_round (sign : Sign) (positive : 0 < mantissa)
    (near : mantissa * 2 ^ place * 2 ^ 53 < 2 ^ power * (2 ^ 53 + 1)) (least : 53 ≤ power)
    (greatest : power ≤ 2097) :
    AtMost (2 ^ power) (UnpackedFloat.round .binary64 sign mantissa (place - 1074)) := by
  have amount : ((place : Int) - 1074 - (lastPlace mantissa place - 1074)).toNat =
      place - lastPlace mantissa place := by omega
  have exponent : (place : Int) - 1074 - (place - lastPlace mantissa place : Nat) =
      (min place (lastPlace mantissa place) : Nat) - 1074 := by omega
  rw [UnpackedFloat.round, targetExponent_eq]
  simp only [decreaseExponent, amount, exponent, Nat.shiftLeft_eq]
  have digits := log2_mul_two_pow positive (place - lastPlace mantissa place)
  apply atMost_roundWithAccuracy sign (Nat.mul_pos positive (Nat.two_pow_pos _)) _ _ least greatest
  · rw [lastPlace] at digits ⊢
    rw [lastPlace, digits]
    omega
  · rwa [Nat.mul_assoc mantissa, ← Nat.pow_add, show place - lastPlace mantissa place +
      min place (lastPlace mantissa place) = place by omega]

theorem atMost_normalize {signed : Int} (zeroSign : Sign)
    (near : signed.natAbs * 2 ^ place * 2 ^ 53 < 2 ^ power * (2 ^ 53 + 1)) (least : 53 ≤ power)
    (greatest : power ≤ 2097) :
    AtMost (2 ^ power) (UnpackedFloat.normalize .binary64 signed (place - 1074) zeroSign) := by
  rcases Int.lt_trichotomy signed 0 with negative | rfl | positive
  · have compared : compare signed 0 = .lt := compare_lt_iff_lt.mpr negative
    have digits : (-signed).toNat = signed.natAbs := by omega
    simp only [UnpackedFloat.normalize, compared, digits]
    exact atMost_round .negative (by omega) near least greatest
  · exact .zero
  · have compared : compare signed 0 = .gt := compare_gt_iff_gt.mpr positive
    have digits : signed.toNat = signed.natAbs := by omega
    simp only [UnpackedFloat.normalize, compared, digits]
    exact atMost_round .positive (by omega) near least greatest

theorem shiftLeft_mul_pow {least : Nat} (fine : least ≤ place) :
    mantissa <<< ((place : Int) - 1074 - (least - 1074)).toNat * 2 ^ least =
      mantissa * 2 ^ place := by
  have amount : ((place : Int) - 1074 - (least - 1074)).toNat = place - least := by omega
  rw [amount, Nat.shiftLeft_eq, Nat.mul_assoc, ← Nat.pow_add, Nat.sub_add_cancel fine]

theorem natAbs_apply_add_apply (sign other : Sign) (first second : Nat) :
    (sign.apply first + other.apply second).natAbs ≤ first + second := by
  have triangle := Int.natAbs_add_le (sign.apply first) (other.apply second)
  rwa [natAbs_apply, natAbs_apply] at triangle

/-- The sum of two numbers stays at most a power of two, if their bounds exceed it by less than half
a step. -/
theorem AtMost.add {first second : Nat} {left right : UnpackedFloat}
    (leftAtMost : AtMost first left) (rightAtMost : AtMost second right)
    (leftLe : first ≤ 2 ^ power) (rightLe : second ≤ 2 ^ power)
    (near : (first + second) * 2 ^ 53 < 2 ^ power * (2 ^ 53 + 1)) (least : 53 ≤ power)
    (greatest : power ≤ 2097) : AtMost (2 ^ power) (UnpackedFloat.add .binary64 left right) := by
  cases leftAtMost with
  | @zero sign =>
      cases rightAtMost with
      | @zero other => cases sign <;> cases other <;> exact .zero
      | finite canonical le => exact .finite canonical (Nat.le_trans le rightLe)
  | @finite sign mantissa place _ canonical le =>
      cases rightAtMost with
      | zero => exact .finite canonical (Nat.le_trans le leftLe)
      | @finite other digits otherPlace _ _ otherLe =>
          have unit : min ((place : Int) - 1074) (otherPlace - 1074) =
              (min place otherPlace : Nat) - 1074 := by omega
          rw [UnpackedFloat.add, unit]
          apply atMost_normalize .positive _ least greatest
          refine Nat.lt_of_le_of_lt (Nat.mul_le_mul_right _ ?_) near
          refine Nat.le_trans (Nat.mul_le_mul_right _ (natAbs_apply_add_apply _ _ _ _)) ?_
          rw [Nat.add_mul, shiftLeft_mul_pow (Nat.min_le_left _ _),
            shiftLeft_mul_pow (Nat.min_le_right _ _)]
          exact Nat.add_le_add le otherLe

theorem atMost_whole {number : Nat} (sign : Sign) (exact : number ≤ greatestExact) :
    AtMost (number * 2 ^ 1074) (whole sign number) := by
  by_cases positive : 0 < number
  · obtain ⟨nonzero, form⟩ := whole_of_positive sign positive exact
    have canonical : Canonical (whole sign number) := canonical_whole exact
    have place : (number.log2 : Int) - 52 = (number.log2 + 1022 : Nat) - 1074 := by omega
    have digits := wholeMantissa_mul positive exact
    simp only [place] at form
    rw [form] at canonical ⊢
    refine .finite canonical (Nat.le_of_eq ?_)
    have places : 1074 = 52 + 1022 := rfl
    rw [places, Nat.pow_add, Nat.pow_add, ← Nat.mul_assoc, digits, Nat.mul_assoc]
  · obtain rfl : number = 0 := by omega
    exact .zero

end Sums

/-- A finite number of an absolute value of at most `2 ^ power`. -/
def Within (power : Nat) (number : Float) : Prop :=
  AtMost (2 ^ (power + 1074)) (unpacked number)

namespace Within

variable {power : Nat} {left right number : Float}

theorem isFinite (within : Within power number) : number.isFinite = true :=
  AtMost.isFinite within

theorem zero (power : Nat) : Within power 0 :=
  AtMost.zero

theorem weaken {greater : Nat} (within : Within power number) (weaker : power ≤ greater) :
    Within greater number :=
  AtMost.weaken within (Nat.pow_le_pow_right (by decide) (by omega))

theorem of_packed (form : UnpackedFloat)
    (packed : number = Float.ofModel (Float.Model.pack form))
    (atMost : AtMost (2 ^ (power + 1074)) form) : Within power number := by
  have unpacked_eq : unpacked number = form := by
    rw [packed]
    exact unpack_pack_of_canonical atMost.canonical
  rwa [Within, unpacked_eq]

theorem add (leftWithin : Within power left) (rightWithin : Within power right)
    (greatest : power ≤ 1022) : Within (power + 1) (left + right) := by
  refine of_packed (UnpackedFloat.add .binary64 (unpacked left) (unpacked right)) rfl ?_
  have doubled : 2 ^ (power + 1 + 1074) = 2 ^ (power + 1074) + 2 ^ (power + 1074) := by
    rw [Nat.add_right_comm, Nat.pow_succ, Nat.mul_two]
  have positive := Nat.two_pow_pos (power + 1 + 1074)
  refine AtMost.add leftWithin rightWithin (by omega) (by omega) ?_ (by omega) (by omega)
  rw [← doubled]
  exact Nat.mul_lt_mul_of_pos_left (by decide) positive

/-- Numbers that are small enough do not lead beyond a power of two, however often they are
added. -/
theorem add_small {small : Nat} (leftWithin : Within power left) (rightWithin : Within small right)
    (absorbed : small + 53 < power) (greatest : power ≤ 1023) : Within power (left + right) := by
  refine of_packed (UnpackedFloat.add .binary64 (unpacked left) (unpacked right)) rfl ?_
  have smaller : 2 ^ (small + 1074) ≤ 2 ^ (power + 1074) :=
    Nat.pow_le_pow_right (by decide) (by omega)
  refine AtMost.add leftWithin rightWithin (Nat.le_refl _) smaller ?_ (by omega) (by omega)
  have tiny : 2 ^ (small + 1074) * 2 ^ 53 < 2 ^ (power + 1074) := by
    rw [← Nat.pow_add]
    exact Nat.pow_lt_pow_right (by decide) (by omega)
  rw [Nat.add_mul, Nat.mul_add, Nat.mul_one]
  exact Nat.add_lt_add_left tiny _

theorem mul_pow_le {natural : Nat} (below : natural ≤ 2 ^ power) (place : Nat) :
    natural * 2 ^ place ≤ 2 ^ (power + place) := by
  rw [Nat.pow_add]
  exact Nat.mul_le_mul_right _ below

theorem mul_pow_near {natural shift place total : Nat} (below : natural ≤ 2 ^ power)
    (places : shift + place = total) :
    natural * 2 ^ shift * 2 ^ place * 2 ^ 53 < 2 ^ (power + total) * (2 ^ 53 + 1) := by
  rw [Nat.mul_assoc natural, ← Nat.pow_add, places]
  exact Nat.mul_lt_mul_of_le_of_lt (mul_pow_le below _) (by decide) (Nat.two_pow_pos _)

/-- Conversion to a floating-point number rounds, but not beyond a power of two. -/
theorem ofNat {natural : Nat} (below : natural ≤ 2 ^ 63) : Within 63 (Float.ofNat natural) := by
  by_cases exact : natural ≤ greatestExact
  · obtain ⟨_, sign, _, form⟩ := Represents.ofNat exact
    rw [Within, form]
    exact (atMost_whole sign exact).weaken (mul_pow_le below 1074)
  · have large : 2 ^ 53 < natural := Nat.lt_of_not_le exact
    have nonzero : natural ≠ 0 := by omega
    refine of_packed (UnpackedFloat.ofScientific .binary64 natural 0) ?_ ?_
    · change Float.ofScientific natural false 0 = _
      rw [Float.ofScientific, dif_neg (by omega)]
      rfl
    · have scaled : UnpackedFloat.ofScientific .binary64 natural 0 =
          roundWithAccuracy .binary64 .positive (natural * 2 ^ 53) ((1021 : Nat) - 1074) .exact := by
        have representable :
            ¬ (0 : Int) < -(2 ^ Format.binary64.exponentBits + (natural.log2 : Int)) := by
          change ¬ (0 : Int) < -(2 ^ 11 + (natural.log2 : Int))
          omega
        rw [UnpackedFloat.ofScientific, dif_neg nonzero, if_neg (by decide), if_neg representable,
          if_pos (Int.le_refl 0)]
        change roundWithAccuracy .binary64 .positive (natural <<< 53 * 1) (-53) .exact = _
        rw [Nat.mul_one, Nat.shiftLeft_eq]
        rfl
      rw [scaled]
      apply atMost_roundWithAccuracy
      · exact Nat.mul_pos (by omega) (by decide)
      · rw [lastPlace, log2_mul_two_pow (by omega)]
        omega
      · exact mul_pow_near below rfl
      · decide
      · decide

theorem neg (within : Within power number) : Within power (-number) :=
  of_packed (unpacked number).neg rfl (AtMost.neg within)

theorem intCast {integer : Int} (below : integer.natAbs ≤ 2 ^ 63) : Within 63 integer := by
  cases integer with
  | ofNat natural => exact ofNat below
  | negSucc natural => exact (ofNat below).neg

end Within

end LongDivision.Binary64
