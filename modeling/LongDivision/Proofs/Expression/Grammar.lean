import LongDivision.Expression.Term
import Mathlib.Algebra.Ring.Int.Defs
import Mathlib.Algebra.Ring.Nat
import Mathlib.Data.List.Induction
import Mathlib.Data.List.TakeWhile

/-! The written forms of a term, as a grammar. A token is read as a term exactly when it has one of
the forms, and then as the term that the form denotes.
-/

namespace LongDivision.Expression

/-- Decimal digits, read from the left. Leading zeros are allowed. -/
inductive Numeral : List Char → Nat → Prop where
  | single {char : Char} (digit : char.isDigit = true) :
      Numeral [char] (char.toNat - '0'.toNat)
  | append {text : List Char} {number : Nat} {char : Char} (higher : Numeral text number)
      (digit : char.isDigit = true) :
      Numeral (text ++ [char]) (10 * number + (char.toNat - '0'.toNat))

inductive SignedNumeral : List Char → Int → Prop where
  | plain {text : List Char} {number : Nat} (numeral : Numeral text number) :
      SignedNumeral text number
  | negative {text : List Char} {number : Nat} (numeral : Numeral text number) :
      SignedNumeral ('-' :: text) (-number)

/-- A coefficient that is written out fits into 64 bits. -/
def WrittenCoefficient (text : List Char) (coeff : Int) : Prop :=
  SignedNumeral text coeff ∧ -2 ^ 63 ≤ coeff ∧ coeff < 2 ^ 63

/-- An exponent that is written out fits into 32 bits. -/
def WrittenExponent (text : List Char) (exponent : Nat) : Prop :=
  Numeral text exponent ∧ exponent < 2 ^ 32

/-- The seven forms of a term, each with the coefficient and the exponent it denotes. -/
inductive WrittenTerm : List Char → Int → Nat → Prop where
  | multipleOfPower {number power : List Char} {coeff : Int} {exponent : Nat}
      (coefficient : WrittenCoefficient number coeff) (raised : WrittenExponent power exponent) :
      WrittenTerm (number ++ '*' :: 'x' :: '^' :: power) coeff exponent
  | multiple {number : List Char} {coeff : Int} (coefficient : WrittenCoefficient number coeff) :
      WrittenTerm (number ++ ['*', 'x']) coeff 1
  | constant {number : List Char} {coeff : Int} (coefficient : WrittenCoefficient number coeff) :
      WrittenTerm number coeff 0
  | negatedPower {power : List Char} {exponent : Nat} (raised : WrittenExponent power exponent) :
      WrittenTerm ('-' :: 'x' :: '^' :: power) (-1) exponent
  | negatedVariable : WrittenTerm ['-', 'x'] (-1) 1
  | power {power : List Char} {exponent : Nat} (raised : WrittenExponent power exponent) :
      WrittenTerm ('x' :: '^' :: power) 1 exponent
  | bareVariable : WrittenTerm ['x'] 1 1

section Numerals

variable {text : List Char} {number : Nat}

theorem Numeral.ne_nil (numeral : Numeral text number) : text ≠ [] := by
  cases numeral with
  | single digit => simp
  | append higher digit => simp

theorem Numeral.isDigit (numeral : Numeral text number) : ∀ char ∈ text, char.isDigit = true := by
  induction numeral with
  | single digit => simpa using digit
  | append higher digit ih =>
      intro char member
      rcases List.mem_append.mp member with before | last
      · exact ih char before
      · rw [List.mem_singleton.mp last]
        exact digit

theorem Numeral.not_mem (numeral : Numeral text number) (char : Char)
    (digit : char.isDigit = false) : char ∉ text := by
  intro member
  have isDigit := numeral.isDigit char member
  rw [digit] at isDigit
  contradiction

theorem numeral_ofDigitChars (nonempty : text ≠ [])
    (digits : ∀ char ∈ text, char.isDigit = true) :
    Numeral text (Nat.ofDigitChars 10 text 0) := by
  induction text using List.reverseRecOn with
  | nil => contradiction
  | append_singleton higher char ih =>
      have digit := digits char (by simp)
      cases higher with
      | nil => simpa [Nat.ofDigitChars] using Numeral.single digit
      | cons first rest =>
          have numeral := ih (by simp) fun other member => digits other (List.mem_append_left _ member)
          simpa [Nat.ofDigitChars] using Numeral.append numeral digit

theorem Numeral.ofDigitChars_eq (numeral : Numeral text number) :
    Nat.ofDigitChars 10 text 0 = number := by
  induction numeral with
  | single digit => simp [Nat.ofDigitChars]
  | append higher digit ih =>
      simp only [Nat.ofDigitChars, List.foldl_append, List.foldl_cons, List.foldl_nil] at ih ⊢
      rw [ih]

theorem number?_eq_some_iff : number? text = some number ↔ Numeral text number := by
  constructor
  · intro read
    rw [number?] at read
    split at read
    · rename_i digits
      simp only [Bool.and_eq_true, Bool.not_eq_true', List.isEmpty_eq_false_iff,
        List.all_eq_true] at digits
      cases read
      exact numeral_ofDigitChars digits.1 digits.2
    · contradiction
  · intro numeral
    have digits : (!text.isEmpty && text.all Char.isDigit) = true := by
      simp only [Bool.and_eq_true, Bool.not_eq_true', List.isEmpty_eq_false_iff,
        List.all_eq_true]
      exact ⟨numeral.ne_nil, numeral.isDigit⟩
    rw [number?, if_pos digits, numeral.ofDigitChars_eq]

theorem exponent?_eq_some_iff : exponent? text = some number ↔ WrittenExponent text number := by
  rw [exponent?, Option.filter_eq_some_iff, number?_eq_some_iff, decide_eq_true_eq,
    WrittenExponent, greatestExponent]
  exact and_congr_right fun _ => by omega

end Numerals

section Coefficients

variable {text : List Char} {coeff : Int}

theorem SignedNumeral.char (numeral : SignedNumeral text coeff) :
    ∀ char ∈ text, char = '-' ∨ char.isDigit = true := by
  cases numeral with
  | plain numeral => exact fun char member => .inr (numeral.isDigit char member)
  | negative numeral =>
      intro char member
      rcases List.mem_cons.mp member with same | later
      · exact .inl same
      · exact .inr (numeral.isDigit char later)

theorem signedNumber?_eq_some_iff :
    signedNumber? text = some coeff ↔ SignedNumeral text coeff := by
  constructor
  · intro read
    unfold signedNumber? at read
    split at read
    · obtain ⟨_, converted, rfl⟩ := Option.map_eq_some_iff.mp read
      obtain ⟨number, numeral, same⟩ := Option.bind_eq_some_iff.mp converted
      cases same
      exact .negative (number?_eq_some_iff.mp numeral)
    · obtain ⟨number, numeral, rfl⟩ := Option.map_eq_some_iff.mp read
      exact .plain (number?_eq_some_iff.mp numeral)
  · intro numeral
    cases numeral with
    | @plain _ number numeral =>
        have unsigned (rest : List Char) : text ≠ '-' :: rest := by
          rintro rfl
          exact numeral.not_mem '-' (by decide) (by simp)
        unfold signedNumber?
        split
        · exact absurd rfl (unsigned _)
        · rw [number?_eq_some_iff.mpr numeral]
          rfl
    | negative numeral =>
        rw [signedNumber?, number?_eq_some_iff.mpr numeral]
        rfl

theorem integer?_eq_some_iff : integer? text = some coeff ↔ WrittenCoefficient text coeff := by
  rw [integer?, Option.filter_eq_some_iff, signedNumber?_eq_some_iff, Bool.and_eq_true,
    decide_eq_true_eq, decide_eq_true_eq, WrittenCoefficient, leastCoefficient,
    greatestCoefficient]
  exact and_congr_right fun _ => by omega

theorem WrittenCoefficient.char (coefficient : WrittenCoefficient text coeff) :
    ∀ char ∈ text, char = '-' ∨ char.isDigit = true :=
  coefficient.1.char

theorem WrittenCoefficient.not_mem (coefficient : WrittenCoefficient text coeff) (char : Char)
    (sign : char ≠ '-') (digit : char.isDigit = false) : char ∉ text := by
  intro member
  rcases coefficient.char char member with same | isDigit
  · exact sign same
  · rw [digit] at isDigit
    contradiction

end Coefficients

section Terms

variable {text : List Char} {coeff : Int} {exponent : Nat}

theorem power?_eq_some_iff :
    power? text = some exponent ↔ (text = ['x'] ∧ exponent = 1) ∨
      ∃ power, text = 'x' :: '^' :: power ∧ WrittenExponent power exponent := by
  constructor
  · intro read
    unfold power? at read
    split at read
    · cases read
      exact .inl ⟨rfl, rfl⟩
    · exact .inr ⟨_, rfl, exponent?_eq_some_iff.mp read⟩
    · contradiction
  · rintro (⟨rfl, rfl⟩ | ⟨power, rfl, raised⟩)
    · rfl
    · exact exponent?_eq_some_iff.mpr raised

theorem writtenTerm_of_plainTerm? (read : plainTerm? text = some (coeff, exponent)) :
    WrittenTerm text coeff exponent := by
  unfold plainTerm? at read
  split at read
  · obtain ⟨_, power, same⟩ := Option.map_eq_some_iff.mp read
    cases same
    rcases power?_eq_some_iff.mp power with ⟨same, rfl⟩ | ⟨digits, same, raised⟩
    · rw [same]
      exact .bareVariable
    · rw [same]
      exact .power raised
  · obtain ⟨_, power, same⟩ := Option.map_eq_some_iff.mp read
    cases same
    rcases power?_eq_some_iff.mp power with ⟨same, rfl⟩ | ⟨digits, same, raised⟩
    · rw [same]
      exact .negatedVariable
    · rw [same]
      exact .negatedPower raised
  · obtain ⟨_, number, same⟩ := Option.map_eq_some_iff.mp read
    cases same
    exact .constant (integer?_eq_some_iff.mp number)

theorem writtenTerm_of_term? (read : term? text = some (coeff, exponent)) :
    WrittenTerm text coeff exponent := by
  unfold term? at read
  split at read
  · exact writtenTerm_of_plainTerm? read
  · rename_i star power rest
    have isStar : star = '*' := by
      have first := List.head?_dropWhile_not (fun char => decide (char ≠ '*')) text
      rw [rest] at first
      simpa using first
    have parts := List.takeWhile_append_dropWhile (p := (fun char => decide (char ≠ '*'))) (l := text)
    rw [rest, isStar] at parts
    simp only [Option.bind_eq_bind, Option.bind_eq_some_iff, Option.pure_def, Option.some.injEq,
      Prod.mk.injEq] at read
    obtain ⟨_, number, _, raised, rfl, rfl⟩ := read
    rw [← parts]
    rcases power?_eq_some_iff.mp raised with ⟨same, rfl⟩ | ⟨digits, same, raised⟩
    · rw [same]
      exact .multiple (integer?_eq_some_iff.mp number)
    · rw [same]
      exact .multipleOfPower (integer?_eq_some_iff.mp number) raised

theorem term?_of_factors {number power : List Char} (coefficient : WrittenCoefficient number coeff)
    (raised : power? power = some exponent) :
    term? (number ++ '*' :: power) = some (coeff, exponent) := by
  have noStar : ∀ char ∈ number, decide (char ≠ '*') = true := by
    intro char member
    have := coefficient.not_mem '*' (by decide) (by decide)
    simp only [decide_eq_true_eq]
    rintro rfl
    contradiction
  have taken : (number ++ '*' :: power).takeWhile (· ≠ '*') = number := by
    rw [List.takeWhile_append_of_pos noStar]
    simp
  have dropped : (number ++ '*' :: power).dropWhile (· ≠ '*') = '*' :: power := by
    rw [List.dropWhile_append_of_pos noStar]
    simp
  simp only [term?, taken, dropped, integer?_eq_some_iff.mpr coefficient, raised]
  rfl

theorem term?_of_noStar (noStar : '*' ∉ text) : term? text = plainTerm? text := by
  have dropped : text.dropWhile (· ≠ '*') = [] := by
    rw [List.dropWhile_eq_nil_iff]
    intro char member
    simp only [decide_eq_true_eq]
    rintro rfl
    contradiction
  simp only [term?, dropped]

theorem plainTerm?_of_coefficient (coefficient : WrittenCoefficient text coeff) :
    plainTerm? text = some (coeff, 0) := by
  have noVariable := coefficient.not_mem 'x' (by decide) (by decide)
  unfold plainTerm?
  split
  · simp at noVariable
  · simp at noVariable
  · rw [integer?_eq_some_iff.mpr coefficient]
    rfl

/-- Each form has its own way through the reader: what stands in front of the first `*` is a
coefficient, and without a `*` the first characters decide. -/
theorem term?_eq_some_iff :
    term? text = some (coeff, exponent) ↔ WrittenTerm text coeff exponent := by
  constructor
  · exact writtenTerm_of_term?
  · intro form
    cases form with
    | multipleOfPower coefficient raised =>
        exact term?_of_factors coefficient (exponent?_eq_some_iff.mpr raised)
    | multiple coefficient => exact term?_of_factors coefficient rfl
    | constant coefficient =>
        rw [term?_of_noStar (coefficient.not_mem '*' (by decide) (by decide)),
          plainTerm?_of_coefficient coefficient]
    | negatedPower raised =>
        have noStar := raised.1.not_mem '*' (by decide)
        rw [term?_of_noStar (by simpa using noStar), plainTerm?, power?,
          exponent?_eq_some_iff.mpr raised]
        rfl
    | negatedVariable => rfl
    | power raised =>
        have noStar := raised.1.not_mem '*' (by decide)
        rw [term?_of_noStar (by simpa using noStar), plainTerm?, power?,
          exponent?_eq_some_iff.mpr raised]
        rfl
    | bareVariable => rfl

theorem WrittenTerm.noPoint (form : WrittenTerm text coeff exponent) : '.' ∉ text := by
  have inCoefficient {number : List Char} (coefficient : WrittenCoefficient number coeff) :
      '.' ∉ number := coefficient.not_mem '.' (by decide) (by decide)
  have inExponent {power : List Char} (raised : WrittenExponent power exponent) : '.' ∉ power :=
    raised.1.not_mem '.' (by decide)
  cases form with
  | multipleOfPower coefficient raised => simp [inCoefficient coefficient, inExponent raised]
  | multiple coefficient => simp [inCoefficient coefficient]
  | constant coefficient => exact inCoefficient coefficient
  | negatedPower raised => simp [inExponent raised]
  | negatedVariable => simp
  | power raised => simp [inExponent raised]
  | bareVariable => simp

theorem WrittenTerm.fits (form : WrittenTerm text coeff exponent) :
    exponent ≤ greatestExponent := by
  have fits {power : List Char} (raised : WrittenExponent power exponent) :
      exponent ≤ greatestExponent := by
    rw [greatestExponent]
    have := raised.2
    omega
  cases form with
  | multipleOfPower coefficient raised => exact fits raised
  | negatedPower raised => exact fits raised
  | power raised => exact fits raised
  | multiple coefficient => decide
  | constant coefficient => decide
  | negatedVariable => decide
  | bareVariable => decide

theorem WrittenTerm.natAbs_coeff_le (form : WrittenTerm text coeff exponent) :
    coeff.natAbs ≤ 2 ^ 63 := by
  have fits {number : List Char} (coefficient : WrittenCoefficient number coeff) :
      coeff.natAbs ≤ 2 ^ 63 := by
    have := coefficient.2
    omega
  cases form with
  | multipleOfPower coefficient raised => exact fits coefficient
  | multiple coefficient => exact fits coefficient
  | constant coefficient => exact fits coefficient
  | negatedPower raised => decide
  | power raised => decide
  | negatedVariable => decide
  | bareVariable => decide

end Terms

end LongDivision.Expression
