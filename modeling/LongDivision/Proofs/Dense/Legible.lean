import LongDivision.Proofs.Decimal.Positional
import LongDivision.Proofs.Dense.Text

/-! Texts that can be told apart. The terms of a polynomial stand next to each other, and yet it is
clear where each one ends: at the sign of the next one, and its coefficient at the `*`.
-/

namespace LongDivision.Dense

theorem append_injective_of_mark {β : Type} {mark : β → Prop} {front front' back back' : List β}
    (unmarked : ∀ item ∈ front, ¬ mark item) (unmarked' : ∀ item ∈ front', ¬ mark item)
    (marked : ∀ item ∈ back.head?, mark item) (marked' : ∀ item ∈ back'.head?, mark item)
    (same : front ++ back = front' ++ back') : front = front' ∧ back = back' := by
  induction front generalizing front' with
  | nil =>
      cases front' with
      | nil => exact ⟨rfl, same⟩
      | cons item front' =>
          have first : back = item :: (front' ++ back') := same
          rw [first] at marked
          exact absurd (marked item rfl) (unmarked' item List.mem_cons_self)
  | cons item front ih =>
      cases front' with
      | nil =>
          have first : item :: (front ++ back) = back' := same
          rw [← first] at marked'
          exact absurd (marked' item rfl) (unmarked item List.mem_cons_self)
      | cons item' front' =>
          obtain ⟨rfl, later⟩ := List.cons.inj same
          obtain ⟨rfl, rest⟩ := ih (List.forall_mem_cons.mp unmarked).2
            (List.forall_mem_cons.mp unmarked').2 later
          exact ⟨rfl, rest⟩

def IsSign (char : Char) : Prop :=
  char = '+' ∨ char = '-'

/-- A text without the characters at which polynomials are cut. -/
structure Uncut (text : List Char) : Prop where
  nonempty : text ≠ []
  noSign : ∀ char ∈ text, ¬ IsSign char
  noStar : ∀ char ∈ text, char ≠ '*'

/-- The two texts of a coefficient: a minus sign belongs to both, a plus sign to the second only. -/
inductive CoefficientTexts : (plain signed : List Char) → Prop where
  | positive {text : List Char} (uncut : Uncut text) : CoefficientTexts text ('+' :: text)
  | negative {text : List Char} (uncut : Uncut text) : CoefficientTexts ('-' :: text) ('-' :: text)

section Coefficients

variable {plain plain' signed signed' : List Char}

theorem CoefficientTexts.cut (texts : CoefficientTexts plain signed) :
    ∃ sign text, signed = sign :: text ∧ IsSign sign ∧ Uncut text := by
  cases texts with
  | positive uncut => exact ⟨_, _, rfl, .inl rfl, uncut⟩
  | negative uncut => exact ⟨_, _, rfl, .inr rfl, uncut⟩

theorem CoefficientTexts.plain_eq (texts : CoefficientTexts plain signed)
    (texts' : CoefficientTexts plain' signed) : plain = plain' := by
  cases texts with
  | positive => cases texts'; rfl
  | negative => cases texts'; rfl

/-- The sign of the first coefficient can be made up for. -/
theorem CoefficientTexts.signed_append_eq (texts : CoefficientTexts plain signed)
    (texts' : CoefficientTexts plain' signed') {rest rest' : List Char}
    (same : plain ++ rest = plain' ++ rest') : signed ++ rest = signed' ++ rest' := by
  have clash {text tail : List Char} (uncut : Uncut text) {later : List Char}
      (same : text ++ tail = '-' :: later) : False := by
    obtain ⟨char, text, rfl⟩ := List.exists_cons_of_ne_nil uncut.nonempty
    obtain ⟨rfl, _⟩ := List.cons.inj same
    exact uncut.noSign _ List.mem_cons_self (.inr rfl)
  cases texts with
  | positive uncut =>
      cases texts' with
      | positive uncut' => exact congrArg ('+' :: ·) same
      | negative uncut' => exact (clash uncut same).elim
  | negative uncut =>
      cases texts' with
      | positive uncut' => exact (clash uncut' same.symm).elim
      | negative uncut' => exact same

end Coefficients

section Powers

/-- The exponent that the text of a power shows. -/
def readPower : (text : List Char) → Nat
  | [] => 0
  | ['*', 'x'] => 1
  | text => Nat.ofDigitChars 10 (text.drop 3) 0

theorem toList_powerText (exponent : Nat) :
    (powerText (exponent + 2)).toList = '*' :: 'x' :: '^' :: decimalDigits (exponent + 2) := by
  simp [powerText]

theorem readPower_powerText (exponent : Nat) :
    readPower (powerText exponent).toList = exponent := by
  match exponent with
  | 0 => rfl
  | 1 => rfl
  | exponent + 2 =>
      rw [toList_powerText]
      exact Nat.ofDigitChars_ten_toDigits

theorem char_powerText {exponent : Nat} :
    ∀ char ∈ (powerText exponent).toList, char.isDigit = true ∨ char ∈ ['*', 'x', '^'] := by
  match exponent with
  | 0 => simp [powerText]
  | 1 => simp [powerText]
  | exponent + 2 =>
      rw [toList_powerText]
      intro char (member : char ∈ ['*', 'x', '^'] ++ decimalDigits (exponent + 2))
      rcases List.mem_append.mp member with symbol | digit
      · exact .inr symbol
      · exact .inl (digits_decimalDigits _ char digit)

theorem not_isSign_of_mem_powerText {exponent : Nat} :
    ∀ char ∈ (powerText exponent).toList, ¬ IsSign char := by
  rintro char member sign
  rcases char_powerText char member with digit | symbol
  · rcases sign with rfl | rfl <;> contradiction
  · rcases sign with rfl | rfl <;> simp at symbol

theorem star_of_mem_head?_powerText {exponent : Nat} :
    ∀ char ∈ (powerText exponent).toList.head?, char = '*' := by
  match exponent with
  | 0 => simp [powerText]
  | 1 => simp [powerText]
  | exponent + 2 => simp [toList_powerText]

end Powers

/-- A coefficient and a power are known from their text, also where more text follows. -/
theorem CoefficientTexts.append_injective {plain plain' signed signed' rest rest' : List Char}
    {exponent exponent' : Nat} (texts : CoefficientTexts plain signed)
    (texts' : CoefficientTexts plain' signed') (starts : ∀ char ∈ rest.head?, IsSign char)
    (starts' : ∀ char ∈ rest'.head?, IsSign char)
    (same : signed ++ (powerText exponent).toList ++ rest =
      signed' ++ (powerText exponent').toList ++ rest') :
    plain = plain' ∧ exponent = exponent' ∧ rest = rest' := by
  have noSign {text : List Char} (uncut : Uncut text) (exponent : Nat) :
      ∀ char ∈ text ++ (powerText exponent).toList, ¬ IsSign char := by
    intro char member
    rcases List.mem_append.mp member with inside | power
    · exact uncut.noSign char inside
    · exact not_isSign_of_mem_powerText char power
  obtain ⟨sign, text, rfl, _, uncut⟩ := texts.cut
  obtain ⟨sign', text', rfl, _, uncut'⟩ := texts'.cut
  simp only [List.cons_append, List.cons.injEq] at same
  obtain ⟨rfl, unsigned⟩ := same
  obtain ⟨terms, rfl⟩ := append_injective_of_mark (noSign uncut exponent)
    (noSign uncut' exponent') starts starts' unsigned
  obtain ⟨rfl, powers⟩ := append_injective_of_mark uncut.noStar uncut'.noStar
    star_of_mem_head?_powerText star_of_mem_head?_powerText terms
  have exponents := congrArg readPower powers
  rw [readPower_powerText, readPower_powerText] at exponents
  exact ⟨texts.plain_eq texts', exponents, rfl⟩

section Terms

variable {α : Type} [Written α]

theorem toList_leadingTermText (term : Term α) : (leadingTermText term).toList =
    (Written.plain term.coeff).toList ++ (powerText term.exponent).toList :=
  String.toList_append

/-- What the terms after the first one are written as. -/
def joinedText (terms : List (Term α)) : List Char :=
  terms.flatMap fun term => (joinedTermText term).toList

theorem joinedText_cons (term : Term α) (terms : List (Term α)) :
    joinedText (term :: terms) = (Written.signed term.coeff).toList ++
      (powerText term.exponent).toList ++ joinedText terms := by
  rw [joinedText, List.flatMap_cons, joinedTermText, String.toList_append]
  rfl

end Terms

variable {α : Type} [Zero α] [BEq α]

/-- Terms that are written out. -/
def Shown (number : α → Prop) (terms : List (Term α)) : Prop :=
  ∀ term ∈ terms, number term.coeff ∧ (term.coeff == 0) = false

theorem shown_nonzeroTerms {number : α → Prop} {poly : Dense α}
    (numbers : ∀ slot ∈ poly.slots, number slot) : Shown number poly.nonzeroTerms := by
  intro term member
  obtain ⟨inside, nonzero⟩ := mem_slots_of_rowTerms member
  exact ⟨numbers _ inside, nonzero⟩

variable [Written α]

/-- Coefficients whose texts can be cut out of the text of a polynomial, and that can be told apart
by them. Also the texts of other coefficients are not empty and not that of zero. -/
structure Legible (number : α → Prop) : Prop where
  visible {coeff : α} (nonzero : (coeff == 0) = false) :
    (Written.plain coeff).toList ≠ [] ∧ (Written.plain coeff).toList ≠ ['0']
  texts {coeff : α} (isNumber : number coeff) (nonzero : (coeff == 0) = false) :
    CoefficientTexts (Written.plain coeff).toList (Written.signed coeff).toList
  distinct {coeff coeff' : α} (isNumber : number coeff) (isNumber' : number coeff')
    (nonzero : (coeff == 0) = false) (nonzero' : (coeff' == 0) = false)
    (same : (Written.plain coeff).toList = (Written.plain coeff').toList) : coeff = coeff'

namespace Legible

variable {number : α → Prop} (legible : Legible number)
variable {terms terms' : List (Term α)} {left right poly : Dense α}
include legible

theorem exists_joinedText {term : Term α} (shown : Shown number (term :: terms)) :
    ∃ sign text, joinedText (term :: terms) = sign :: text ∧ IsSign sign := by
  obtain ⟨isNumber, nonzero⟩ := shown term List.mem_cons_self
  obtain ⟨sign, text, signed, isSign, _⟩ := (legible.texts isNumber nonzero).cut
  rw [joinedText_cons, signed]
  exact ⟨_, _, rfl, isSign⟩

theorem sign_of_mem_head?_joinedText (shown : Shown number terms) :
    ∀ char ∈ (joinedText terms).head?, IsSign char := by
  cases terms with
  | nil => simp [joinedText]
  | cons term terms =>
      obtain ⟨sign, text, starts, isSign⟩ := legible.exists_joinedText shown
      simpa [starts] using isSign

theorem joinedText_injective (shown : Shown number terms) (shown' : Shown number terms')
    (same : joinedText terms = joinedText terms') : terms = terms' := by
  induction terms generalizing terms' with
  | nil =>
      cases terms' with
      | nil => rfl
      | cons term' terms' =>
          obtain ⟨_, _, starts, _⟩ := legible.exists_joinedText shown'
          rw [starts] at same
          contradiction
  | cons term terms ih =>
      cases terms' with
      | nil =>
          obtain ⟨_, _, starts, _⟩ := legible.exists_joinedText shown
          rw [starts] at same
          contradiction
      | cons term' terms' =>
          obtain ⟨⟨isNumber, nonzero⟩, later⟩ := List.forall_mem_cons.mp shown
          obtain ⟨⟨isNumber', nonzero'⟩, later'⟩ := List.forall_mem_cons.mp shown'
          rw [joinedText_cons, joinedText_cons] at same
          obtain ⟨plain, exponents, rest⟩ :=
            (legible.texts isNumber nonzero).append_injective (legible.texts isNumber' nonzero')
              (legible.sign_of_mem_head?_joinedText later)
              (legible.sign_of_mem_head?_joinedText later') same
          have coeffs := legible.distinct isNumber isNumber' nonzero nonzero' plain
          have terms : term = term' := by
            cases term
            cases term'
            exact congrArg₂ Term.mk exponents coeffs
          rw [terms, ih later later' rest]

theorem terms_eq_of_leadingText {term term' : Term α} (shown : Shown number (term :: terms))
    (shown' : Shown number (term' :: terms'))
    (same : (leadingTermText term).toList ++ joinedText terms =
      (leadingTermText term').toList ++ joinedText terms') : term :: terms = term' :: terms' := by
  obtain ⟨isNumber, nonzero⟩ := shown term List.mem_cons_self
  obtain ⟨isNumber', nonzero'⟩ := shown' term' List.mem_cons_self
  rw [toList_leadingTermText, toList_leadingTermText, List.append_assoc, List.append_assoc] at same
  have joined := (legible.texts isNumber nonzero).signed_append_eq
    (legible.texts isNumber' nonzero') same
  rw [← List.append_assoc, ← List.append_assoc, ← joinedText_cons, ← joinedText_cons] at joined
  exact legible.joinedText_injective shown shown' joined

theorem text_visible (nonzero : poly.isZero = false) : poly.text ≠ "" ∧ poly.text ≠ "0" := by
  obtain ⟨term, terms, form⟩ := List.exists_cons_of_ne_nil (nonzeroTerms_ne_nil nonzero)
  have first : term ∈ poly.nonzeroTerms := by
    rw [form]
    exact List.mem_cons_self
  have present := (mem_slots_of_rowTerms first).2
  obtain ⟨some, notZero⟩ := legible.visible present
  have text := toList_text form
  rw [toList_leadingTermText, List.append_assoc] at text
  constructor
  · intro empty
    rw [empty] at text
    exact some (List.append_eq_nil_iff.mp text.symm).1
  · intro zero
    rw [zero] at text
    rcases List.append_eq_singleton_iff.mp text.symm with ⟨none, _⟩ | ⟨alone, _⟩
    · exact some none
    · exact notZero alone

theorem render_eq_zero_iff (poly : Dense α) : poly.render = "0" ↔ poly.isZero = true := by
  rw [render]
  cases isZero : poly.isZero with
  | true => simp
  | false => simp [(legible.text_visible isZero).2]

theorem render_ne_empty (poly : Dense α) : poly.render ≠ "" := by
  rw [render]
  cases isZero : poly.isZero with
  | true => simp
  | false => exact (legible.text_visible isZero).1

theorem nonzeroTerms_eq_of_text (leftNumbers : ∀ slot ∈ left.slots, number slot)
    (rightNumbers : ∀ slot ∈ right.slots, number slot) (leftNonzero : left.isZero = false)
    (rightNonzero : right.isZero = false) (same : left.text = right.text) :
    left.nonzeroTerms = right.nonzeroTerms := by
  obtain ⟨term, terms, form⟩ := List.exists_cons_of_ne_nil (nonzeroTerms_ne_nil leftNonzero)
  obtain ⟨term', terms', form'⟩ := List.exists_cons_of_ne_nil (nonzeroTerms_ne_nil rightNonzero)
  have shown := shown_nonzeroTerms leftNumbers
  have shown' := shown_nonzeroTerms rightNumbers
  have texts := congrArg String.toList same
  rw [toList_text form, toList_text form'] at texts
  rw [form] at shown ⊢
  rw [form'] at shown' ⊢
  exact legible.terms_eq_of_leadingText shown shown' texts

/-- The text of a polynomial says what its nonzero terms are, and nothing more. -/
theorem render_eq_iff (leftNumbers : ∀ slot ∈ left.slots, number slot)
    (rightNumbers : ∀ slot ∈ right.slots, number slot) :
    left.render = right.render ↔ left.nonzeroTerms = right.nonzeroTerms := by
  constructor
  · intro same
    have zeros : left.isZero = true ↔ right.isZero = true := by
      rw [← legible.render_eq_zero_iff, same, legible.render_eq_zero_iff]
    cases leftZero : left.isZero with
    | true => rw [nonzeroTerms_of_isZero leftZero, nonzeroTerms_of_isZero (zeros.mp leftZero)]
    | false =>
        have rightZero : right.isZero = false := by
          rw [← Bool.not_eq_true, ← zeros, leftZero]
          exact Bool.false_ne_true
        rw [render, render, leftZero, rightZero] at same
        exact legible.nonzeroTerms_eq_of_text leftNumbers rightNumbers leftZero rightZero same
  · intro same
    have zeros : left.isZero = right.isZero := by
      rw [Bool.eq_iff_iff, ← nonzeroTerms_eq_nil_iff, same, nonzeroTerms_eq_nil_iff]
    rw [render, render, zeros, text_congr same]

end Legible

end LongDivision.Dense
