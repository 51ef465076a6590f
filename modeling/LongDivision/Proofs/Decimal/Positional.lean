import LongDivision.Decimal
import Mathlib

/-! Positional text can be read back: the number of a decimal depends on nothing but the digits of
its text and on how many of them stand behind the point.
-/

namespace LongDivision

def Digits (text : List Char) : Prop :=
  ∀ char ∈ text, char.isDigit = true

section Digits

variable {text other : List Char}

theorem digits_decimalDigits (number : Nat) : Digits (decimalDigits number) :=
  fun _ => Nat.isDigit_of_mem_toDigits (by decide) (by decide)

theorem digits_zeros (count : Nat) : Digits (List.replicate count '0') := by
  intro char member
  rw [List.eq_of_mem_replicate member]
  decide

theorem Digits.append (digits : Digits text) (otherDigits : Digits other) :
    Digits (text ++ other) := by
  intro char member
  rcases List.mem_append.mp member with inside | inside
  · exact digits char inside
  · exact otherDigits char inside

theorem Digits.noPoint (digits : Digits text) : ∀ char ∈ text, decide (char ≠ '.') = true := by
  intro char member
  rw [decide_eq_true_eq]
  rintro rfl
  have := digits '.' member
  contradiction

end Digits

namespace Decimal

/-- The number that a decimal is. -/
def value (decimal : Decimal) : ℚ :=
  decimal.digits * 10 ^ decimal.exponent

/-- The number that positional text shows. -/
def read (text : List Char) : ℚ :=
  Nat.ofDigitChars 10 (text.filter (· ≠ '.')) 0 / 10 ^ ((text.dropWhile (· ≠ '.')).length - 1)

theorem read_of_digits {text : List Char} (digits : Digits text) :
    read text = Nat.ofDigitChars 10 text 0 := by
  rw [read, List.filter_eq_self.mpr digits.noPoint, List.dropWhile_eq_nil_iff.mpr digits.noPoint,
    List.length_nil, pow_zero, div_one]

theorem read_of_point {whole fraction : List Char} (digits : Digits (whole ++ fraction)) :
    read (whole ++ '.' :: fraction) =
      Nat.ofDigitChars 10 (whole ++ fraction) 0 / 10 ^ fraction.length := by
  have wholeDigits : Digits whole := fun char member => digits char (List.mem_append_left _ member)
  have kept : (whole ++ '.' :: fraction).filter (· ≠ '.') = whole ++ fraction := by
    rw [← List.filter_eq_self.mpr digits.noPoint, List.filter_append, List.filter_append]
    rfl
  have left : (whole ++ '.' :: fraction).dropWhile (· ≠ '.') = '.' :: fraction :=
    List.dropWhile_append_of_pos wholeDigits.noPoint
  rw [read, kept, left, List.length_cons, Nat.add_sub_cancel]

variable {decimal : Decimal}

/-- Zeros in front of the digits make room for the point. -/
theorem positional_of_fraction {tenths : Nat} (exponent : decimal.exponent = .negSucc tenths) :
    ∃ (zeros : Nat) (whole fraction : List Char),
      decimal.positional = whole ++ '.' :: fraction ∧
      whole ++ fraction = List.replicate zeros '0' ++ decimalDigits decimal.digits ∧
      fraction.length = tenths + 1 := by
  refine ⟨tenths + 1 + 1 - (decimalDigits decimal.digits).length, _, _,
    by rw [positional, exponent], List.take_append_drop _ _, ?_⟩
  rw [List.length_drop, List.length_append, List.length_replicate]
  omega

theorem char_positional (decimal : Decimal) :
    ∀ char ∈ decimal.positional, char.isDigit = true ∨ char = '.' := by
  cases exponent : decimal.exponent with
  | ofNat zeros =>
      rw [positional, exponent]
      exact fun char member =>
        .inl ((digits_decimalDigits _).append (digits_zeros zeros) char member)
  | negSucc tenths =>
      obtain ⟨zeros, whole, fraction, text, padded, _⟩ := positional_of_fraction exponent
      have digits : Digits (whole ++ fraction) :=
        padded ▸ (digits_zeros zeros).append (digits_decimalDigits _)
      rw [text]
      intro char member
      rcases List.mem_append.mp member with inside | later
      · exact .inl (digits char (List.mem_append_left _ inside))
      · rcases List.mem_cons.mp later with point | inside
        · exact .inr point
        · exact .inl (digits char (List.mem_append_right _ inside))

theorem positional_ne_nil (decimal : Decimal) : decimal.positional ≠ [] := by
  cases exponent : decimal.exponent with
  | ofNat zeros =>
      rw [positional, exponent]
      exact List.append_ne_nil_of_left_ne_nil Nat.toDigits_ne_nil _
  | negSucc tenths =>
      obtain ⟨_, whole, fraction, text, _⟩ := positional_of_fraction exponent
      rw [text]
      exact List.append_ne_nil_of_right_ne_nil _ (List.cons_ne_nil _ _)

theorem read_positional (decimal : Decimal) : read decimal.positional = decimal.value := by
  have number : Nat.ofDigitChars 10 (decimalDigits decimal.digits) 0 = decimal.digits :=
    Nat.ofDigitChars_ten_toDigits
  cases exponent : decimal.exponent with
  | ofNat zeros =>
      have digits := (digits_decimalDigits decimal.digits).append (digits_zeros zeros)
      have text : decimal.positional =
          decimalDigits decimal.digits ++ List.replicate zeros '0' := by rw [positional, exponent]
      rw [text, read_of_digits digits, Nat.ofDigitChars_append, number,
        Nat.ofDigitChars_replicate_zero, value, exponent]
      push_cast
      rw [mul_comm, Int.ofNat_eq_natCast, zpow_natCast]
  | negSucc tenths =>
      obtain ⟨zeros, whole, fraction, text, padded, places⟩ := positional_of_fraction exponent
      have digits : Digits (whole ++ fraction) :=
        padded ▸ (digits_zeros zeros).append (digits_decimalDigits _)
      rw [text, read_of_point digits, padded, Nat.ofDigitChars_append,
        Nat.ofDigitChars_replicate_zero, Nat.mul_zero, number, places, value, exponent,
        zpow_negSucc, div_eq_mul_inv]

end Decimal

end LongDivision
