import LongDivision.Proofs.Coefficient.WholeText
import LongDivision.Proofs.Dense.Legible
import LongDivision.Proofs.Expression.Outcome
import LongDivision.Proofs.TermMap.Rows

/-! Reading undoes writing: the text of a polynomial with whole coefficients is cut at its signs
into the texts of its terms, and these are added up to the terms again.
-/

namespace LongDivision.Expression

open Binary64

section Tokens

/-- The text of a term without a sign. -/
def unsignedToken (number exponent : Nat) : List Char :=
  decimalDigits number ++ (Dense.powerText exponent).toList

/-- The text of a term that stands first or alone. -/
def termToken (term : Term Int) : List Char :=
  integerText term.coeff ++ (Dense.powerText term.exponent).toList

/-- The text of a term that follows another one. -/
def joinedToken (term : Term Int) : List Char :=
  signedText term.coeff ++ (Dense.powerText term.exponent).toList

variable {term : Term Int}

theorem termToken_of_negative (negative : term.coeff < 0) :
    termToken term = '-' :: unsignedToken term.coeff.natAbs term.exponent := by
  rw [termToken, integerText_of_negative negative]
  rfl

theorem termToken_of_nonneg (nonneg : 0 ≤ term.coeff) :
    termToken term = unsignedToken term.coeff.natAbs term.exponent := by
  rw [termToken, integerText_of_nonneg nonneg]
  rfl

theorem joinedToken_of_not_positive (notPositive : ¬ 0 < term.coeff) :
    joinedToken term = termToken term := by
  rw [joinedToken, signedText, if_neg notPositive]
  rfl

theorem joinedToken_of_positive (positive : 0 < term.coeff) :
    joinedToken term = '+' :: termToken term := by
  rw [joinedToken, signedText, if_pos positive]
  rfl

theorem char_unsignedToken {number exponent : Nat} :
    ∀ char ∈ unsignedToken number exponent, char.isDigit = true ∨ char ∈ ['*', 'x', '^'] := by
  intro char member
  rcases List.mem_append.mp member with digit | power
  · exact .inl (digits_decimalDigits _ char digit)
  · exact Dense.char_powerText char power

theorem not_mem_unsignedToken {number exponent : Nat} {char : Char}
    (digit : char.isDigit = false) (other : char ∉ ['*', 'x', '^']) :
    char ∉ unsignedToken number exponent := by
  intro member
  rcases char_unsignedToken char member with isDigit | symbol
  · rw [digit] at isDigit
    contradiction
  · exact other symbol

theorem isBlank_of_isDigit {char : Char} (digit : char.isDigit = true) : isBlank char = false := by
  have range : 48 ≤ char.toNat ∧ char.toNat ≤ 57 := by
    simpa [Char.isDigit, Char.le_def, UInt32.le_iff_toNat_le] using digit
  simp [isBlank, blankRanges]
  omega

theorem isBlank_of_mem_unsignedToken {number exponent : Nat} :
    ∀ char ∈ unsignedToken number exponent, isBlank char = false := by
  intro char member
  rcases char_unsignedToken char member with digit | symbol
  · exact isBlank_of_isDigit digit
  · have symbols : ∀ char ∈ ['*', 'x', '^'], isBlank char = false := by simp [isBlank, blankRanges]
    exact symbols char symbol

theorem isBlank_of_mem_termToken : ∀ char ∈ termToken term, isBlank char = false := by
  by_cases negative : term.coeff < 0
  · rw [termToken_of_negative negative]
    intro char member
    rcases List.mem_cons.mp member with rfl | later
    · decide
    · exact isBlank_of_mem_unsignedToken char later
  · rw [termToken_of_nonneg (Int.not_lt.mp negative)]
    exact isBlank_of_mem_unsignedToken

theorem isBlank_of_mem_joinedToken : ∀ char ∈ joinedToken term, isBlank char = false := by
  by_cases positive : 0 < term.coeff
  · rw [joinedToken_of_positive positive]
    intro char member
    rcases List.mem_cons.mp member with rfl | later
    · decide
    · exact isBlank_of_mem_termToken char later
  · rw [joinedToken_of_not_positive positive]
    exact isBlank_of_mem_termToken

theorem plus_not_mem_termToken : '+' ∉ termToken term := by
  have unsigned (number exponent : Nat) : '+' ∉ unsignedToken number exponent :=
    not_mem_unsignedToken (by decide) (by decide)
  by_cases negative : term.coeff < 0
  · rw [termToken_of_negative negative]
    simp [unsigned]
  · rw [termToken_of_nonneg (Int.not_lt.mp negative)]
    exact unsigned _ _

theorem termToken_ne_nil : termToken term ≠ [] := by
  have digits (number : Nat) : decimalDigits number ≠ [] := Nat.toDigits_ne_nil
  rw [termToken]
  cases term.coeff with
  | ofNat number => simp [integerText, digits]
  | negSucc number => simp [integerText]

theorem separateSigns_of_not_mem {text : List Char} (unsigned : '-' ∉ text) :
    separateSigns text = text := by
  induction text with
  | nil => rfl
  | cons char rest ih =>
      obtain ⟨different, later⟩ := not_or.mp (mt List.mem_cons.mpr unsigned)
      have separated : separateSigns (char :: rest) = char :: separateSigns rest := by
        simp [separateSigns, Ne.symm different]
      rw [separated, ih later]

theorem separateSigns_unsignedToken (number exponent : Nat) :
    separateSigns (unsignedToken number exponent) = unsignedToken number exponent :=
  separateSigns_of_not_mem (not_mem_unsignedToken (by decide) (by decide))

theorem separateSigns_termToken_of_negative (negative : term.coeff < 0) :
    separateSigns (termToken term) = '+' :: termToken term := by
  rw [termToken_of_negative negative]
  change '+' :: '-' :: separateSigns _ = _
  rw [separateSigns_unsignedToken]

theorem separateSigns_termToken_of_nonneg (nonneg : 0 ≤ term.coeff) :
    separateSigns (termToken term) = termToken term := by
  rw [termToken_of_nonneg nonneg, separateSigns_unsignedToken]

/-- Whether the sign of a later term is written as a plus or as a minus, a plus separates it. -/
theorem separateSigns_joinedToken (nonzero : term.coeff ≠ 0) :
    separateSigns (joinedToken term) = '+' :: termToken term := by
  rcases Int.lt_or_gt_of_ne nonzero with negative | positive
  · have notPositive : ¬ 0 < term.coeff := by omega
    rw [joinedToken_of_not_positive notPositive, separateSigns_termToken_of_negative negative]
  · rw [joinedToken_of_positive positive]
    change '+' :: separateSigns _ = _
    rw [separateSigns_termToken_of_nonneg (Int.le_of_lt positive)]

end Tokens

section Pieces

variable {term : Term Int} {terms : List (Term Int)}

theorem separateSigns_flatMap (nonzero : ∀ term ∈ terms, term.coeff ≠ 0) :
    separateSigns (terms.flatMap joinedToken) = terms.flatMap fun term => '+' :: termToken term := by
  induction terms with
  | nil => rfl
  | cons term terms ih =>
      rw [List.flatMap_cons, List.flatMap_cons, separateSigns_append,
        separateSigns_joinedToken (nonzero term List.mem_cons_self),
        ih fun other later => nonzero other (List.mem_cons_of_mem _ later)]

theorem splitOn_flatMap {head : List Char} (noPlus : '+' ∉ head) (terms : List (Term Int)) :
    (head ++ terms.flatMap fun term => '+' :: termToken term).splitOn '+' =
      head :: terms.map termToken := by
  have single {text : List Char} (noPlus : '+' ∉ text) : text.splitOn '+' = [text] :=
    List.splitOnP_eq_singleton fun char member => by
      rw [beq_eq_false_iff_ne]
      rintro rfl
      exact noPlus member
  induction terms generalizing head with
  | nil => rw [List.flatMap_nil, List.append_nil, single noPlus, List.map_nil]
  | cons term terms ih =>
      rw [List.flatMap_cons, List.cons_append, List.splitOn_append_cons_of_beq _ _ (beq_self_eq_true _),
        single noPlus, ih plus_not_mem_termToken]
      rfl

theorem isBlank_of_mem_joined :
    ∀ char ∈ termToken term ++ terms.flatMap joinedToken, isBlank char = false := by
  intro char member
  rcases List.mem_append.mp member with first | later
  · exact isBlank_of_mem_termToken char first
  · obtain ⟨other, _, inside⟩ := List.mem_flatMap.mp later
    exact isBlank_of_mem_joinedToken char inside

/-- What the terms are written as is cut into what each of them is written as. -/
theorem pieces_joined (nonzero : ∀ other ∈ term :: terms, other.coeff ≠ 0) :
    pieces (termToken term ++ terms.flatMap joinedToken) = (term :: terms).map termToken := by
  have unblank : (termToken term ++ terms.flatMap joinedToken).filter (fun char => !isBlank char) =
      termToken term ++ terms.flatMap joinedToken := by
    rw [List.filter_eq_self]
    intro char member
    rw [Bool.not_eq_true']
    exact isBlank_of_mem_joined char member
  have filled : ((term :: terms).map termToken).filter (· ≠ []) = (term :: terms).map termToken := by
    rw [List.filter_eq_self]
    intro token member
    obtain ⟨other, _, rfl⟩ := List.mem_map.mp member
    exact decide_eq_true termToken_ne_nil
  have later := separateSigns_flatMap fun other member => nonzero other (List.mem_cons_of_mem _ member)
  rw [pieces, unblank, separateSigns_append, later]
  by_cases negative : term.coeff < 0
  · have split := splitOn_flatMap (List.not_mem_nil (a := '+')) (term :: terms)
    rw [List.flatMap_cons, List.nil_append] at split
    rw [separateSigns_termToken_of_negative negative, split]
    exact filled
  · rw [separateSigns_termToken_of_nonneg (Int.not_lt.mp negative),
      splitOn_flatMap plus_not_mem_termToken]
    exact filled

end Pieces

section Reading

variable {term : Term Int} {limit : Nat}

theorem numeral_decimalDigits (number : Nat) : Numeral (decimalDigits number) number := by
  have value : Nat.ofDigitChars 10 (decimalDigits number) 0 = number :=
    Nat.ofDigitChars_ten_toDigits
  have nonempty : decimalDigits number ≠ [] := Nat.toDigits_ne_nil
  have numeral := numeral_ofDigitChars nonempty (digits_decimalDigits number)
  rwa [value] at numeral

theorem signedNumeral_integerText (integer : Int) : SignedNumeral (integerText integer) integer := by
  cases integer with
  | ofNat number => exact .plain (numeral_decimalDigits number)
  | negSucc number => exact .negative (numeral_decimalDigits (number + 1))

theorem writtenTerm_termToken (exact : term.coeff.natAbs ≤ greatestExact)
    (fits : term.exponent ≤ greatestExponent) :
    WrittenTerm (termToken term) term.coeff term.exponent := by
  have coefficient : WrittenCoefficient (integerText term.coeff) term.coeff := by
    rw [greatestExact] at exact
    exact ⟨signedNumeral_integerText _, by omega, by omega⟩
  have raised (exponent : Nat) (fits : exponent ≤ greatestExponent) :
      WrittenExponent (decimalDigits exponent) exponent := by
    rw [greatestExponent] at fits
    exact ⟨numeral_decimalDigits exponent, by omega⟩
  obtain ⟨exponent, coeff⟩ := term
  cases exponent with
  | zero =>
      have text : termToken ⟨0, coeff⟩ = integerText coeff := List.append_nil _
      rw [text]
      exact .constant coefficient
  | succ exponent =>
      cases exponent with
      | zero =>
          have text : termToken ⟨1, coeff⟩ = integerText coeff ++ ['*', 'x'] := by
            simp [termToken, Dense.powerText]
          rw [text]
          exact .multiple coefficient
      | succ exponent =>
          have text : termToken ⟨exponent + 2, coeff⟩ =
              integerText coeff ++ '*' :: 'x' :: '^' :: decimalDigits (exponent + 2) := by
            simp [termToken, Dense.powerText]
          rw [text]
          exact .multipleOfPower coefficient (raised _ fits)

/-- The term with its coefficient converted, as a read term is. -/
def converted (term : Term Int) : Term Float :=
  ⟨term.exponent, term.coeff⟩

/-- What the token of a term is read as. -/
def readBack (term : Term Int) : ReadTerm :=
  ⟨String.ofList (termToken term), term.coeff, term.exponent⟩

theorem leadingTermText_converted (nonzero : term.coeff ≠ 0)
    (exact : term.coeff.natAbs ≤ greatestExact) :
    (Dense.leadingTermText (converted term)).toList = termToken term := by
  have plain := (Represents.intCast exact).plain_eq nonzero
  change (String.ofList (ofFloat term.coeff).plain ++ _).toList = _
  rw [String.toList_append, String.toList_ofList, plain]
  rfl

theorem joinedTermText_converted (nonzero : term.coeff ≠ 0)
    (exact : term.coeff.natAbs ≤ greatestExact) :
    (Dense.joinedTermText (converted term)).toList = joinedToken term := by
  have signed := (Represents.intCast exact).signed_eq nonzero
  change (String.ofList (ofFloat term.coeff).signed ++ _).toList = _
  rw [String.toList_append, String.toList_ofList, signed]
  rfl

theorem exists_converted {floats : List (Term Float)}
    (nonzero : ∀ term ∈ floats, (term.coeff == 0) = false)
    (whole : ∀ term ∈ floats, ∃ integer, Represents term.coeff integer) :
    ∃ terms : List (Term Int), floats = terms.map converted ∧
      ∀ term ∈ terms, term.coeff ≠ 0 ∧ term.coeff.natAbs ≤ greatestExact := by
  induction floats with
  | nil => exact ⟨[], rfl, by simp⟩
  | cons float floats ih =>
      obtain ⟨integer, represents⟩ := whole float List.mem_cons_self
      obtain ⟨terms, rfl, bounds⟩ :=
        ih (fun other later => nonzero other (List.mem_cons_of_mem _ later))
          fun other later => whole other (List.mem_cons_of_mem _ later)
      have present := nonzero float List.mem_cons_self
      have same := represents.eq_intCast present
      rw [represents.beq_zero, decide_eq_false_iff_not] at present
      refine ⟨⟨float.exponent, integer⟩ :: terms, ?_, ?_⟩
      · rw [List.map_cons, converted, ← same]
      · intro term member
        rcases List.mem_cons.mp member with rfl | later
        · exact ⟨present, represents.exact⟩
        · exact bounds term later

variable {poly : Dense Float}

/-- A row of slots whose nonzero ones are integers is written in the terms of these integers. -/
theorem exists_text (nonempty : poly.nonzeroTerms ≠ [])
    (whole : ∀ term ∈ poly.nonzeroTerms, ∃ integer, Represents term.coeff integer) :
    ∃ first later, poly.nonzeroTerms = (first :: later).map converted ∧
      (∀ term ∈ first :: later, term.coeff ≠ 0 ∧ term.coeff.natAbs ≤ greatestExact) ∧
      poly.text.toList = termToken first ++ later.flatMap joinedToken := by
  obtain ⟨terms, same, bounds⟩ :=
    exists_converted (fun term member => (Dense.mem_slots_of_rowTerms member).2) whole
  obtain ⟨first, later, rfl⟩ := List.exists_cons_of_ne_nil (l := terms) (by
    rintro rfl
    exact nonempty same)
  refine ⟨first, later, same, bounds, ?_⟩
  obtain ⟨nonzero, exact⟩ := bounds first List.mem_cons_self
  rw [Dense.toList_text same, List.flatMap_map, leadingTermText_converted nonzero exact]
  congr 1
  refine List.flatMap_congr fun other member => ?_
  obtain ⟨nonzero, exact⟩ := bounds other (List.mem_cons_of_mem _ member)
  exact joinedTermText_converted nonzero exact

theorem isBlank_of_mem_text (nonempty : poly.nonzeroTerms ≠ [])
    (whole : ∀ term ∈ poly.nonzeroTerms, ∃ integer, Represents term.coeff integer) :
    ∀ char ∈ poly.text.toList, isBlank char = false := by
  obtain ⟨first, later, _, _, text⟩ := exists_text nonempty whole
  rw [text]
  exact isBlank_of_mem_joined

/-- What is written for a polynomial whose nonzero slots are integers reads back as these slots. -/
theorem parse_text (nonempty : poly.nonzeroTerms ≠ [])
    (whole : ∀ term ∈ poly.nonzeroTerms, ∃ integer, Represents term.coeff integer)
    (within : ∀ term ∈ poly.nonzeroTerms,
      term.exponent ≤ limit ∧ term.exponent ≤ greatestExponent) :
    ∃ map : TermMap Float, parse limit poly.text.toList = .ok map ∧
      map.terms = poly.nonzeroTerms.reverse := by
  obtain ⟨first, later, same, bounds, text⟩ := exists_text nonempty whole
  have accepted : List.Forall₂ (Accepts limit) ((first :: later).map termToken)
      ((first :: later).map readBack) := by
    rw [List.forall₂_map_left_iff, List.forall₂_map_right_iff, List.forall₂_same]
    intro term member
    obtain ⟨nonzero, exact⟩ := bounds term member
    obtain ⟨below, fits⟩ := within (converted term) (by rw [same]; exact List.mem_map_of_mem member)
    exact ⟨rfl, writtenTerm_termToken exact fits, nonzero, below⟩
  refine ⟨TermMap.ofTerms poly.nonzeroTerms, ?_, TermMap.terms_ofTerms (Dense.descending_rowTerms _)
    fun term member => (Dense.mem_slots_of_rowTerms member).2⟩
  rw [parse_eq_ok_iff, text, pieces_joined fun term member => (bounds term member).1]
  refine ⟨List.cons_ne_nil _ _, _, accepted, ?_⟩
  rw [same, List.map_map]
  rfl

end Reading

/-- A map whose coefficients are integers reads back from the text of its dense form, also when
zero slots stand in front. -/
theorem parse_text_toDense {map : TermMap Float} {limit : Nat} {zeros : List Float}
    (nonempty : map.isEmpty = false)
    (whole : ∀ term ∈ map.terms, ∃ integer : Int,
      integer.natAbs ≤ 2 ^ 53 ∧ term.coeff = integer)
    (within : ∀ term ∈ map.terms, term.exponent ≤ limit) (fits : limit ≤ greatestExponent)
    (allZero : ∀ slot ∈ zeros, (slot == 0) = true) :
    parse limit (Dense.ofSlots (zeros ++ map.toDense.slots)).text.toList = .ok map := by
  have slots : (Dense.ofSlots (zeros ++ map.toDense.slots)).nonzeroTerms = map.terms.reverse := by
    have row : zeros ++ map.toDense.slots ≠ [] := List.append_ne_nil_of_right_ne_nil _ (List.cons_ne_nil _ _)
    rw [Dense.nonzeroTerms, Dense.slots_ofSlots row, Dense.rowTerms_append_of_zeros allZero]
    exact TermMap.nonzeroTerms_toDense (by decide) map
  have terms : (Dense.ofSlots (zeros ++ map.toDense.slots)).nonzeroTerms ≠ [] := by
    rw [slots, ne_eq, List.reverse_eq_nil_iff]
    exact List.isEmpty_eq_false_iff.mp nonempty
  have represented : ∀ term ∈ (Dense.ofSlots (zeros ++ map.toDense.slots)).nonzeroTerms,
      ∃ integer, Represents term.coeff integer := by
    intro term member
    rw [slots, List.mem_reverse] at member
    obtain ⟨integer, exact, same⟩ := whole term member
    rw [same]
    exact ⟨integer, .intCast exact⟩
  have bounded : ∀ term ∈ (Dense.ofSlots (zeros ++ map.toDense.slots)).nonzeroTerms,
      term.exponent ≤ limit ∧ term.exponent ≤ greatestExponent := by
    intro term member
    rw [slots, List.mem_reverse] at member
    have below := within term member
    exact ⟨below, Nat.le_trans below fits⟩
  obtain ⟨read, accepted, same⟩ := parse_text terms represented bounded
  rw [slots, List.reverse_reverse] at same
  rw [accepted, TermMap.ext_terms same]

theorem parse_text_toDense_of_leading_zero :
    (TermMap.ofTerms [⟨2, 3⟩, ⟨0, -1⟩] : TermMap Float).isEmpty = false ∧
    (∀ term ∈ (TermMap.ofTerms [⟨2, 3⟩, ⟨0, -1⟩] : TermMap Float).terms, ∃ integer : Int,
      integer.natAbs ≤ 2 ^ 53 ∧ term.coeff = integer) ∧
    parse 2 (Dense.ofSlots
        ([0] ++ (TermMap.ofTerms [⟨2, 3⟩, ⟨0, -1⟩] : TermMap Float).toDense.slots)).text.toList =
      .ok (TermMap.ofTerms [⟨2, 3⟩, ⟨0, -1⟩] : TermMap Float) := by
  have terms : (TermMap.ofTerms [⟨2, 3⟩, ⟨0, -1⟩] : TermMap Float).terms = [⟨0, -1⟩, ⟨2, 3⟩] :=
    TermMap.terms_ofTerms (by simp [Term.Descending]) (by decide)
  have nonempty : (TermMap.ofTerms [⟨2, 3⟩, ⟨0, -1⟩] : TermMap Float).isEmpty = false := by
    rw [TermMap.isEmpty, terms]
    rfl
  have whole : ∀ term ∈ (TermMap.ofTerms [⟨2, 3⟩, ⟨0, -1⟩] : TermMap Float).terms,
      ∃ integer : Int, integer.natAbs ≤ 2 ^ 53 ∧ term.coeff = integer := by
    rw [terms]
    intro term member
    rcases List.mem_pair.mp member with rfl | rfl
    · exact ⟨-1, by decide, rfl⟩
    · exact ⟨3, by decide, rfl⟩
  have within : ∀ term ∈ (TermMap.ofTerms [⟨2, 3⟩, ⟨0, -1⟩] : TermMap Float).terms,
      term.exponent ≤ 2 := by
    rw [terms]
    simp
  exact ⟨nonempty, whole, parse_text_toDense nonempty whole within (by decide) (by decide)⟩

end LongDivision.Expression
