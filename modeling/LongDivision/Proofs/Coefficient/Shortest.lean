import LongDivision.Coefficient.Binary64
import LongDivision.Proofs.Decimal.Positional

/-! The decimal that a floating-point number is written as lies among the numbers that round to it.
These intervals have no number in common, so that a decimal is written for one number only.
-/

namespace LongDivision

namespace Window

variable {window : Window} {number unit multiplier : Nat}

theorem contains_iff : window.contains number = true ↔
    window.low ≤ number ∧ number ≤ window.high ∧
      (window.closed = false → window.low < number ∧ number < window.high) := by
  unfold contains
  cases window.closed with
  | true => simp
  | false =>
      simp only [Bool.false_eq_true, if_false, Bool.and_eq_true, decide_eq_true_eq, true_implies]
      omega

theorem contains_of_nearestMultiple? (found : window.nearestMultiple? unit = some multiplier) :
    window.contains (multiplier * unit) = true := by
  unfold nearestMultiple? at found
  dsimp only at found
  split at found
  · rename_i below above
    split at found
    · cases found
      exact below
    · cases found
      exact above
  · rename_i below _
    cases found
    exact below
  · rename_i above
    cases found
    exact above
  · contradiction

theorem contains_coarsest (inside : window.contains window.value = true) (power : Nat) :
    window.contains ((window.coarsest power).1 * 10 ^ (window.coarsest power).2) = true := by
  induction power with
  | zero => rwa [coarsest, Nat.pow_zero, Nat.mul_one]
  | succ power ih =>
      rw [coarsest]
      cases found : window.nearestMultiple? (Nat.pow 10 (power + 1)) with
      | some multiplier => exact contains_of_nearestMultiple? found
      | none => exact ih

end Window

namespace Binary64

section Intervals

variable {mantissa exponent : Nat}

/-- The lower end of the numbers that round to a mantissa, in quarters of a step. -/
def lowerEnd (mantissa exponent : Nat) : Nat :=
  (window mantissa exponent 1).low

def upperEnd (mantissa : Nat) : Nat :=
  4 * mantissa + 2

theorem lowerEnd_lt (positive : 0 < mantissa) : lowerEnd mantissa exponent < 4 * mantissa := by
  simp only [lowerEnd, window]
  split <;> omega

theorem le_lowerEnd (mantissa exponent : Nat) : 4 * mantissa - 2 ≤ lowerEnd mantissa exponent := by
  simp only [lowerEnd, window]
  split <;> omega

theorem le_lowerEnd_of_full (full : 2 ^ 52 ≤ mantissa) (nonzero : exponent ≠ 0) :
    2 ^ 54 - 1 ≤ lowerEnd mantissa exponent := by
  simp only [lowerEnd, window]
  split
  · omega
  · rename_i different
    have other : mantissa ≠ 2 ^ 52 := fun same => different ⟨same, nonzero⟩
    omega

theorem window_low (mantissa exponent unit : Nat) :
    (window mantissa exponent unit).low = lowerEnd mantissa exponent * unit := by
  simp only [lowerEnd, window, Nat.mul_one]

theorem window_high (mantissa exponent unit : Nat) :
    (window mantissa exponent unit).high = upperEnd mantissa * unit := rfl

theorem window_contains_value (positive : 0 < mantissa) (exponent : Nat) {unit : Nat}
    (unitPositive : 0 < unit) :
    (window mantissa exponent unit).contains (window mantissa exponent unit).value = true := by
  have low : (window mantissa exponent unit).low < (window mantissa exponent unit).value := by
    rw [window_low]
    exact Nat.mul_lt_mul_of_pos_right (lowerEnd_lt positive) unitPositive
  have high : (window mantissa exponent unit).value < (window mantissa exponent unit).high :=
    Nat.mul_lt_mul_of_pos_right (by omega) unitPositive
  exact Window.contains_iff.mpr ⟨Nat.le_of_lt low, Nat.le_of_lt high, fun _ => ⟨low, high⟩⟩

/-- A number among those that round to `mantissa * 2 ^ exponent / 2 ^ 1074`. Both ends do so if the
mantissa is even. -/
structure RoundsTo (number : ℚ) (mantissa exponent : Nat) : Prop where
  lower : lowerEnd mantissa exponent * (2 : ℚ) ^ (exponent - 1076 : Int) ≤ number
  upper : number ≤ upperEnd mantissa * (2 : ℚ) ^ (exponent - 1076 : Int)
  open_of_odd : mantissa % 2 = 1 →
    lowerEnd mantissa exponent * (2 : ℚ) ^ (exponent - 1076 : Int) < number ∧
      number < upperEnd mantissa * (2 : ℚ) ^ (exponent - 1076 : Int)

/-- A quarter of a step, raised to a whole number by decimal places. -/
def quarterStep (exponent : Nat) : Nat :=
  5 ^ (1076 - exponent) * 2 ^ (exponent - 1076)

theorem quarterStep_pos (exponent : Nat) : 0 < quarterStep exponent := by
  unfold quarterStep
  positivity

theorem quarterStep_eq (exponent : Nat) :
    (quarterStep exponent : ℚ) = 10 ^ (1076 - exponent) * 2 ^ (exponent - 1076 : Int) := by
  have shift : ((exponent - 1076 : Nat) : Int) =
      (1076 - exponent : Nat) + (exponent - 1076 : Int) := by omega
  rw [quarterStep, show (10 : ℚ) = 5 * 2 by norm_num, mul_pow, mul_assoc, ← zpow_natCast (2 : ℚ),
    ← zpow_add₀ two_ne_zero, ← shift, zpow_natCast]
  push_cast
  rfl

theorem shortest_eq (mantissa exponent : Nat) :
    ∃ digits power, (window mantissa exponent (quarterStep exponent)).coarsest
        (window mantissa exponent (quarterStep exponent)).powerAbove = (digits, power) ∧
      shortest mantissa exponent = ⟨digits, power - (1076 - exponent : Nat)⟩ :=
  ⟨_, _, rfl, rfl⟩

/-- A multiple that is found in the window is the decimal, counted in its last places. -/
theorem value_of_scaled (digits power exponent : Nat) :
    Decimal.value ⟨digits, power - (1076 - exponent : Nat)⟩ =
      (digits * 10 ^ power : Nat) / (quarterStep exponent : ℚ) * 2 ^ (exponent - 1076 : Int) := by
  have places : (10 : ℚ) ^ (1076 - exponent) ≠ 0 := by positivity
  have shift : (2 : ℚ) ^ (exponent - 1076 : Int) ≠ 0 := zpow_ne_zero _ two_ne_zero
  rw [quarterStep_eq, Decimal.value, zpow_sub₀ (by norm_num), zpow_natCast, zpow_natCast]
  push_cast
  field_simp

theorem roundsTo_shortest (positive : 0 < mantissa) (exponent : Nat) :
    RoundsTo (shortest mantissa exponent).value mantissa exponent := by
  obtain ⟨digits, power, coarsest, written⟩ := shortest_eq mantissa exponent
  have inside := Window.contains_coarsest
    (window_contains_value positive exponent (quarterStep_pos exponent))
    (window mantissa exponent (quarterStep exponent)).powerAbove
  rw [coarsest] at inside
  obtain ⟨lower, upper, strict⟩ := Window.contains_iff.mp inside
  rw [window_low] at lower strict
  rw [window_high] at upper strict
  have step : (0 : ℚ) < quarterStep exponent := by exact_mod_cast quarterStep_pos exponent
  have unit : (0 : ℚ) < 2 ^ (exponent - 1076 : Int) := zpow_pos two_pos _
  rw [written, value_of_scaled]
  refine ⟨?_, ?_, fun odd => ?_⟩
  · rw [mul_le_mul_iff_left₀ unit, le_div_iff₀ step]
    exact_mod_cast lower
  · rw [mul_le_mul_iff_left₀ unit, div_le_iff₀ step]
    exact_mod_cast upper
  · have isOpen : (window mantissa exponent (quarterStep exponent)).closed = false := by
      simp [window, odd]
    obtain ⟨above, below⟩ := strict isOpen
    rw [mul_lt_mul_iff_left₀ unit, mul_lt_mul_iff_left₀ unit, lt_div_iff₀ step, div_lt_iff₀ step]
    exact ⟨by exact_mod_cast above, by exact_mod_cast below⟩

end Intervals

section Unique

variable {mantissa exponent other place : Nat} {number : ℚ}

/-- Two intervals with a number in common reach to each other, and beyond if one of them is open. -/
theorem RoundsTo.overlap (rounds : RoundsTo number mantissa exponent)
    (otherRounds : RoundsTo number other (exponent + place)) :
    lowerEnd other (exponent + place) * 2 ^ place ≤ upperEnd mantissa ∧
      (mantissa % 2 = 1 ∨ other % 2 = 1 →
        lowerEnd other (exponent + place) * 2 ^ place < upperEnd mantissa) := by
  have unit : (0 : ℚ) < 2 ^ (exponent - 1076 : Int) := zpow_pos two_pos _
  have scale : (2 : ℚ) ^ ((exponent + place : Nat) - 1076 : Int) =
      2 ^ place * 2 ^ (exponent - 1076 : Int) := by
    rw [← zpow_natCast (2 : ℚ), ← zpow_add₀ two_ne_zero]
    congr 1
    omega
  have lower := otherRounds.lower
  have strictLower := otherRounds.open_of_odd
  rw [scale, ← mul_assoc] at lower strictLower
  constructor
  · have reaches := (mul_le_mul_iff_left₀ unit).mp (lower.trans rounds.upper)
    exact_mod_cast reaches
  · intro odd
    have beyond : (lowerEnd other (exponent + place) * 2 ^ place : ℚ) < upperEnd mantissa := by
      rcases odd with odd | odd
      · exact (mul_lt_mul_iff_left₀ unit).mp (lower.trans_lt (rounds.open_of_odd odd).2)
      · exact (mul_lt_mul_iff_left₀ unit).mp ((strictLower odd).1.trans_le rounds.upper)
    exact_mod_cast beyond

/-- A mantissa of full width, or any one with the least exponent. -/
def FullWidth (mantissa exponent : Nat) : Prop :=
  0 < mantissa ∧ mantissa < 2 ^ 53 ∧ (2 ^ 52 ≤ mantissa ∨ exponent = 0)

/-- The interval of a greater number begins where that of a smaller one ends, or later. -/
theorem RoundsTo.not_below (rounds : RoundsTo number mantissa exponent)
    (otherRounds : RoundsTo number other place) (fits : FullWidth mantissa exponent)
    (otherFits : FullWidth other place) (le : exponent ≤ place)
    (less : exponent < place ∨ mantissa < other) : False := by
  obtain ⟨distance, rfl⟩ := Nat.exists_eq_add_of_le le
  obtain ⟨positive, short, _⟩ := fits
  obtain ⟨otherPositive, _, full⟩ := otherFits
  obtain ⟨reaches, strict⟩ := rounds.overlap otherRounds
  rw [upperEnd] at reaches strict
  have near := le_lowerEnd other (exponent + distance)
  cases distance with
  | zero =>
      -- Of two mantissas in succession one is odd.
      rw [pow_zero, mul_one] at reaches strict
      omega
  | succ distance =>
      have doubled : lowerEnd other (exponent + (distance + 1)) * 2 ≤
          lowerEnd other (exponent + (distance + 1)) * 2 ^ (distance + 1) :=
        Nat.mul_le_mul_left _ (Nat.le_self_pow (by omega) 2)
      have far : 2 ^ 54 - 1 ≤ lowerEnd other (exponent + (distance + 1)) :=
        le_lowerEnd_of_full (full.resolve_right (by omega)) (by omega)
      -- Only the greatest mantissa comes near, and that one is odd.
      omega

theorem RoundsTo.unique (rounds : RoundsTo number mantissa exponent)
    (otherRounds : RoundsTo number other place) (fits : FullWidth mantissa exponent)
    (otherFits : FullWidth other place) : mantissa = other ∧ exponent = place := by
  rcases Nat.lt_trichotomy exponent place with below | rfl | above
  · exact (rounds.not_below otherRounds fits otherFits (Nat.le_of_lt below) (.inl below)).elim
  · refine ⟨?_, rfl⟩
    rcases Nat.lt_trichotomy mantissa other with less | same | greater
    · exact (rounds.not_below otherRounds fits otherFits (Nat.le_refl _) (.inr less)).elim
    · exact same
    · exact (otherRounds.not_below rounds otherFits fits (Nat.le_refl _) (.inr greater)).elim
  · exact (otherRounds.not_below rounds otherFits fits (Nat.le_of_lt above) (.inl above)).elim

end Unique

end Binary64

end LongDivision
