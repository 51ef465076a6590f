import LongDivision.Decimal
import LongDivision.Decimal.Shortest
import Mathlib

/-! Whole numbers in decimal places. In a window that reaches to no other whole number, the coarsest
grid point is the number without its trailing zeros.
-/

namespace LongDivision

theorem decimalDigits_mul_pow {digits : Nat} (positive : 0 < digits) (zeros : Nat) :
    decimalDigits (digits * 10 ^ zeros) = decimalDigits digits ++ List.replicate zeros '0' := by
  induction zeros with
  | zero => rw [Nat.pow_zero, Nat.mul_one, List.replicate_zero, List.append_nil]
  | succ zeros ih =>
      have earlier : 0 < digits * 10 ^ zeros := Nat.mul_pos positive (Nat.pow_pos (by decide))
      have last := Nat.toDigits_append_toDigits (b := 10) (d := 0) (by decide) earlier (by decide)
      have shifted : digits * 10 ^ (zeros + 1) = 10 * (digits * 10 ^ zeros) + 0 := by
        rw [Nat.pow_succ]
        ring
      rw [decimalDigits, shifted, ← last, ← decimalDigits, ih, List.append_assoc, List.replicate_succ']
      rfl

namespace Window

variable {number places : Nat} {window : Window}

/-- A window around a whole number, scaled by a power of ten, that reaches to no other whole number. -/
structure Surrounds (window : Window) (number places : Nat) : Prop where
  value : window.value = number * 10 ^ places
  low : window.low < window.value
  high : window.value < window.high
  below : window.value - window.low < 10 ^ places
  above : window.high - window.value < 10 ^ places ∨
    window.high - window.value = 10 ^ places ∧ number % 2 = 0

theorem nearestMultiple?_of_dvd (surrounds : Surrounds window number places) (zeros : Nat)
    (divides : 10 ^ zeros ∣ number) :
    window.nearestMultiple? (10 ^ (places + zeros)) = some (number / 10 ^ zeros) := by
  obtain ⟨digits, rfl⟩ := divides
  obtain ⟨value, low, high, -, -⟩ := surrounds
  have step : 0 < 10 ^ (places + zeros) := Nat.pow_pos (by decide)
  have grid : window.value = digits * 10 ^ (places + zeros) := by
    rw [value, Nat.pow_add]
    ring
  have multiplier : window.value / 10 ^ (places + zeros) = digits := by
    rw [grid, Nat.mul_div_cancel _ step]
  have inside : window.contains window.value = true := by
    unfold contains
    split <;> simp <;> omega
  have next : 0 < (digits + 1) * 10 ^ (places + zeros) - window.value := by
    rw [grid, Nat.succ_mul]
    omega
  rw [nearestMultiple?, multiplier, ← grid, inside,
    Nat.mul_div_cancel_left _ (Nat.pow_pos (by decide)), Nat.sub_self]
  cases window.contains ((digits + 1) * 10 ^ (places + zeros)) with
  | true => exact if_pos next
  | false => rfl

theorem nearestMultiple?_of_not_dvd (surrounds : Surrounds window number places) {zeros : Nat}
    (indivisible : ¬ 10 ^ zeros ∣ number) :
    window.nearestMultiple? (10 ^ (places + zeros)) = none := by
  obtain ⟨value, low, high, below, above⟩ := surrounds
  have digit : 0 < 10 ^ places := Nat.pow_pos (by decide)
  have multiplier : window.value / 10 ^ (places + zeros) = number / 10 ^ zeros := by
    rw [value, Nat.pow_add, Nat.mul_comm number, Nat.mul_div_mul_left _ _ digit]
  have split := Nat.div_add_mod number (10 ^ zeros)
  have short : number % 10 ^ zeros < 10 ^ zeros := Nat.mod_lt _ (Nat.pow_pos (by decide))
  have rest : 0 < number % 10 ^ zeros := Nat.pos_of_ne_zero (mt Nat.dvd_of_mod_eq_zero indivisible)
  have grid (multiplier : Nat) :
      multiplier * 10 ^ (places + zeros) = 10 ^ zeros * multiplier * 10 ^ places := by
    rw [Nat.pow_add]
    ring
  have outsideBelow : window.contains (number / 10 ^ zeros * 10 ^ (places + zeros)) = false := by
    have gap : number / 10 ^ zeros * 10 ^ (places + zeros) + 10 ^ places ≤ window.value := by
      rw [grid, value, ← Nat.succ_mul]
      exact Nat.mul_le_mul_right _ (by omega)
    unfold contains
    split <;> simp <;> omega
  have outsideAbove : window.contains ((number / 10 ^ zeros + 1) * 10 ^ (places + zeros)) = false := by
    have upper : number + 1 ≤ 10 ^ zeros * (number / 10 ^ zeros + 1) := by
      rw [Nat.mul_succ]
      omega
    have gap : window.value + 10 ^ places ≤ (number / 10 ^ zeros + 1) * 10 ^ (places + zeros) := by
      rw [grid, value, ← Nat.succ_mul]
      exact Nat.mul_le_mul_right _ upper
    have beyond : window.high < (number / 10 ^ zeros + 1) * 10 ^ (places + zeros) := by
      rcases above with near | ⟨edge, even⟩
      · omega
      · have evenGrid : 2 ∣ 10 ^ zeros * (number / 10 ^ zeros + 1) := by
          cases zeros with
          | zero => simp at indivisible
          | succ zeros => exact Dvd.dvd.mul_right (Dvd.dvd.mul_left ⟨5, rfl⟩ _) _
        have further : number + 2 ≤ 10 ^ zeros * (number / 10 ^ zeros + 1) := by omega
        have wide : window.value + 2 * 10 ^ places ≤
            (number / 10 ^ zeros + 1) * 10 ^ (places + zeros) := by
          rw [grid, value, ← Nat.add_mul]
          exact Nat.mul_le_mul_right _ further
        omega
    unfold contains
    split <;> simp <;> omega
  rw [nearestMultiple?, multiplier, outsideBelow, outsideAbove]

theorem coarsest_of_some {power multiplier : Nat}
    (found : window.nearestMultiple? (10 ^ (power + 1)) = some multiplier) :
    window.coarsest (power + 1) = (multiplier, power + 1) := by
  change window.nearestMultiple? (Nat.pow 10 (power + 1)) = _ at found
  rw [coarsest, found]

theorem coarsest_of_none {power : Nat}
    (missing : window.nearestMultiple? (10 ^ (power + 1)) = none) :
    window.coarsest (power + 1) = window.coarsest power := by
  change window.nearestMultiple? (Nat.pow 10 (power + 1)) = _ at missing
  rw [coarsest, missing]

/-- The coarsest grid that has a point in the window is the one that takes off trailing zeros. -/
theorem coarsest_of_surrounds (surrounds : Surrounds window number places) (fraction : 0 < places)
    (extra : Nat) :
    ∃ zeros, 10 ^ zeros ∣ number ∧
      window.coarsest (places + extra) = (number / 10 ^ zeros, places + zeros) := by
  induction extra with
  | zero =>
      obtain ⟨fewer, rfl⟩ := Nat.exists_eq_succ_of_ne_zero (Nat.ne_of_gt fraction)
      have whole : 10 ^ 0 ∣ number := Nat.one_dvd number
      exact ⟨0, whole, coarsest_of_some (nearestMultiple?_of_dvd surrounds 0 whole)⟩
  | succ extra ih =>
      by_cases divides : 10 ^ (extra + 1) ∣ number
      · exact ⟨extra + 1, divides, coarsest_of_some (nearestMultiple?_of_dvd surrounds _ divides)⟩
      · obtain ⟨zeros, trailing, coarsest⟩ := ih
        refine ⟨zeros, trailing, ?_⟩
        rw [← coarsest]
        exact coarsest_of_none (nearestMultiple?_of_not_dvd surrounds divides)

end Window

end LongDivision
