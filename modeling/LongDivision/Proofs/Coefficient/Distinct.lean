import LongDivision.Proofs.Coefficient.Shortest
import LongDivision.Proofs.Coefficient.Special
import LongDivision.Proofs.Coefficient.WholeText
import LongDivision.Proofs.Dense.Legible

/-! The texts of floating-point numbers can be told apart, and from all that stands next to them in
the text of a polynomial.
-/

namespace LongDivision.Binary64

open Float.Model Float.Model.UnpackedFloat

section Content

theorem negative_injective {left right : Sign} (same : negative left = negative right) :
    left = right := by
  cases left <;> cases right <;> first | rfl | contradiction

theorem ofUnpacked_injective {left right : UnpackedFloat} (canonical : Canonical left)
    (canonical' : Canonical right) (same : ofUnpacked left = ofUnpacked right) : left = right := by
  cases left with
  | notANumber => cases right <;> first | rfl | cases same
  | infinity sign =>
      cases right with
      | infinity sign' => rw [negative_injective (infinite.inj same)]
      | _ => cases same
  | zero sign =>
      cases right with
      | zero sign' => rw [negative_injective (finite.inj same).1]
      | finite sign' mantissa' exponent' positive' =>
          obtain ⟨_, none, _⟩ := finite.inj same
          omega
      | _ => cases same
  | finite sign mantissa exponent positive =>
      cases right with
      | zero sign' =>
          obtain ⟨_, none, _⟩ := finite.inj same
          omega
      | finite sign' mantissa' exponent' positive' =>
          obtain ⟨signs, rfl, exponents⟩ := finite.inj same
          obtain ⟨_, least, _⟩ := canonical
          obtain ⟨_, least', _⟩ := canonical'
          obtain rfl := negative_injective signs
          obtain rfl : exponent = exponent' := by omega
          rfl
      | _ => cases same

theorem ofFloat_injective {number other : Float} (same : ofFloat number = ofFloat other) :
    number = other := by
  rw [ofFloat_eq_ofUnpacked, ofFloat_eq_ofUnpacked] at same
  have unpackedSame :=
    ofUnpacked_injective (canonical_unpacked number) (canonical_unpacked other) same
  rw [← ofModel_pack_unpacked number, unpackedSame, ofModel_pack_unpacked]

/-- What numbers that are not zero consist of. -/
inductive Nonzero : Binary64 → Prop where
  | infinite (negative : Bool) : Nonzero (.infinite negative)
  | finite (negative : Bool) {mantissa exponent : Nat} (full : FullWidth mantissa exponent) :
      Nonzero (.finite negative mantissa exponent)

theorem nonzero_ofFloat {number : Float} (isNumber : number.isNaN = false)
    (nonzero : (number == 0) = false) : Nonzero (ofFloat number) := by
  have canonical := canonical_unpacked number
  rw [ofFloat_eq_ofUnpacked]
  cases form : unpacked number with
  | notANumber =>
      change (unpacked number).isNaN = false at isNumber
      rw [form] at isNumber
      contradiction
  | infinity sign => exact .infinite _
  | zero sign => exact absurd form (unpacked_of_nonzero nonzero sign)
  | finite sign mantissa exponent positive =>
      rw [form] at canonical
      obtain ⟨fits, least, _, full⟩ := canonical
      exact .finite _ ⟨positive, fits, by omega⟩

end Content

section Texts

open LongDivision.Dense

theorem uncut_positional (decimal : Decimal) : Uncut decimal.positional := by
  have chars := decimal.char_positional
  refine ⟨decimal.positional_ne_nil, ?_, ?_⟩
  · rintro char member (rfl | rfl)
    · exact absurd (chars '+' member) (by decide)
    · exact absurd (chars '-' member) (by decide)
  · rintro char member rfl
    exact absurd (chars '*' member) (by decide)

theorem uncut_inf : Uncut ['i', 'n', 'f'] := by
  refine ⟨List.cons_ne_nil _ _, ?_, ?_⟩ <;> simp [IsSign]

variable {number other : Binary64}

theorem Nonzero.texts (nonzero : Nonzero number) : CoefficientTexts number.plain number.signed := by
  cases nonzero with
  | infinite negative =>
      cases negative with
      | false => exact .positive uncut_inf
      | true => exact .negative uncut_inf
  | finite negative full =>
      rw [signed_finite, plain_finite]
      cases negative with
      | false => exact .positive (uncut_positional _)
      | true => exact .negative (uncut_positional _)

section Finite

variable {mantissa exponent mantissa' exponent' : Nat}

theorem decimal_of_full (full : FullWidth mantissa exponent) :
    decimal mantissa exponent = shortest mantissa exponent :=
  if_neg (Nat.ne_of_gt full.1)

theorem value_decimal_pos (full : FullWidth mantissa exponent) :
    0 < (decimal mantissa exponent).value := by
  rw [decimal_of_full full]
  have positive : (0 : ℚ) < lowerEnd mantissa exponent := by
    have := le_lowerEnd mantissa exponent
    have := full.1
    exact_mod_cast (by omega : 0 < lowerEnd mantissa exponent)
  exact (mul_pos positive (zpow_pos two_pos _)).trans_le (roundsTo_shortest full.1 exponent).lower

theorem eq_of_positional (full : FullWidth mantissa exponent) (full' : FullWidth mantissa' exponent')
    (same : (decimal mantissa exponent).positional = (decimal mantissa' exponent').positional) :
    mantissa = mantissa' ∧ exponent = exponent' := by
  have values := congrArg Decimal.read same
  rw [Decimal.read_positional, Decimal.read_positional, decimal_of_full full,
    decimal_of_full full'] at values
  have rounds := roundsTo_shortest full.1 exponent
  rw [values] at rounds
  exact rounds.unique (roundsTo_shortest full'.1 exponent') full full'

end Finite

theorem not_mem_plain_finite (negative : Bool) (mantissa exponent : Nat) :
    'n' ∉ (finite negative mantissa exponent).plain := by
  have positional : 'n' ∉ (decimal mantissa exponent).positional := fun member =>
    absurd (Decimal.char_positional _ 'n' member) (by decide)
  rw [plain_finite]
  cases negative with
  | false => exact positional
  | true => simp [positional]

theorem mem_plain_infinite (negative : Bool) : 'n' ∈ (infinite negative).plain := by
  cases negative <;> decide

theorem Nonzero.plain_injective (nonzero : Nonzero number) (nonzero' : Nonzero other)
    (same : number.plain = other.plain) : number = other := by
  cases nonzero with
  | infinite negative =>
      cases nonzero' with
      | infinite negative' => cases negative <;> cases negative' <;> first | rfl | cases same
      | finite negative' full' =>
          have member := mem_plain_infinite negative
          rw [same] at member
          exact absurd member (not_mem_plain_finite _ _ _)
  | finite negative full =>
      cases nonzero' with
      | infinite negative' =>
          have member := mem_plain_infinite negative'
          rw [← same] at member
          exact absurd member (not_mem_plain_finite _ _ _)
      | finite negative' full' =>
          rw [plain_finite, plain_finite] at same
          have unsigned {text : List Char} (decimal : Decimal) :
              decimal.positional ≠ '-' :: text := by
            intro minus
            refine (uncut_positional decimal).noSign '-' ?_ (.inr rfl)
            rw [minus]
            exact List.mem_cons_self
          cases negative with
          | false =>
              cases negative' with
              | false =>
                  obtain ⟨rfl, rfl⟩ := eq_of_positional full full' same
                  rfl
              | true => exact absurd same (unsigned _)
          | true =>
              cases negative' with
              | false => exact absurd same.symm (unsigned _)
              | true =>
                  obtain ⟨rfl, rfl⟩ := eq_of_positional full full' (List.cons.inj same).2
                  rfl

theorem Nonzero.plain_visible (nonzero : Nonzero number) :
    number.plain ≠ [] ∧ number.plain ≠ ['0'] := by
  cases nonzero with
  | infinite negative => cases negative <;> decide
  | @finite negative mantissa exponent full =>
      rw [plain_finite]
      cases negative with
      | true => simp
      | false =>
          refine ⟨Decimal.positional_ne_nil _, fun zero => ?_⟩
          have text : (decimal mantissa exponent).positional = ['0'] := zero
          have shown : Decimal.read ['0'] = 0 := by
            rw [Decimal.read_of_digits (by simp [Digits]), Nat.cast_eq_zero]
            rfl
          have positive := value_decimal_pos full
          rw [← Decimal.read_positional, text, shown] at positive
          exact absurd positive (lt_irrefl 0)

theorem plain_visible {number : Float} (nonzero : (number == 0) = false) :
    (ofFloat number).plain ≠ [] ∧ (ofFloat number).plain ≠ ['0'] := by
  cases isNaN : number.isNaN with
  | false => exact (nonzero_ofFloat isNaN nonzero).plain_visible
  | true =>
      rw [ofFloat_eq_ofUnpacked, unpacked_of_isNaN isNaN]
      decide

theorem legible_float : Legible fun number : Float => number.isNaN = false where
  visible nonzero := by
    obtain ⟨some, notZero⟩ := plain_visible nonzero
    change (String.ofList _).toList ≠ [] ∧ (String.ofList _).toList ≠ ['0']
    rw [String.toList_ofList]
    exact ⟨some, notZero⟩
  texts isNumber nonzero := by
    change CoefficientTexts (String.ofList _).toList (String.ofList _).toList
    rw [String.toList_ofList, String.toList_ofList]
    exact (nonzero_ofFloat isNumber nonzero).texts
  distinct isNumber isNumber' nonzero nonzero' same := by
    change (String.ofList _).toList = (String.ofList _).toList at same
    rw [String.toList_ofList, String.toList_ofList] at same
    exact ofFloat_injective ((nonzero_ofFloat isNumber nonzero).plain_injective
      (nonzero_ofFloat isNumber' nonzero') same)

end Texts

end LongDivision.Binary64
