import LongDivision.Expression
import LongDivision.Proofs.Expression.Grammar
import LongDivision.Proofs.Expression.Tokens
import LongDivision.Proofs.TermMap.Insertion
import Mathlib.Data.List.Forall2

/-! What becomes of an expression: its tokens are terms within the limit, or the first one that is
not decides why it is refused.
-/

namespace LongDivision.Expression

variable {limit : Nat} {token : List Char} {reason : ExpressionError} {term : ReadTerm}

def PointInCoefficient (token : List Char) : Prop :=
  ∃ before after, token = before ++ '.' :: after ∧ 'x' ∉ before

structure Accepts (limit : Nat) (token : List Char) (term : ReadTerm) : Prop where
  text : term.token = String.ofList token
  form : WrittenTerm token term.coeff term.exponent
  nonzero : term.coeff ≠ 0
  within : term.exponent ≤ limit

/-- A token has one fault only: each is looked for where the ones before it are ruled out. -/
inductive Refuses (limit : Nat) (token : List Char) : ExpressionError → Prop where
  | point (point : PointInCoefficient token) :
      Refuses limit token (.nonIntegerCoefficient (String.ofList token))
  | noForm (noPoint : ¬ PointInCoefficient token)
      (noForm : ∀ coeff exponent, ¬ WrittenTerm token coeff exponent) :
      Refuses limit token (.invalidTerm (String.ofList token))
  | zero (noPoint : ¬ PointInCoefficient token) {exponent : Nat}
      (form : WrittenTerm token 0 exponent) :
      Refuses limit token (.zeroCoefficient (String.ofList token))
  | above (noPoint : ¬ PointInCoefficient token) {coeff : Int} {exponent : Nat}
      (form : WrittenTerm token coeff exponent) (nonzero : coeff ≠ 0) (above : limit < exponent) :
      Refuses limit token (.degreeTooLarge exponent limit)

theorem pointInCoefficient_iff : PointInCoefficient token ↔ '.' ∈ token.takeWhile (· ≠ 'x') := by
  constructor
  · rintro ⟨before, after, rfl, noVariable⟩
    have passed : ∀ char ∈ before, decide (char ≠ 'x') = true := by
      intro char member
      simp only [decide_eq_true_eq]
      rintro rfl
      contradiction
    rw [List.takeWhile_append_of_pos passed]
    simp
  · intro member
    obtain ⟨before, rest, split⟩ := List.append_of_mem member
    refine ⟨before, rest ++ token.dropWhile (· ≠ 'x'), ?_, ?_⟩
    · rw [← List.cons_append, ← List.append_assoc, ← split, List.takeWhile_append_dropWhile]
    · intro inside
      have passed := List.mem_takeWhile_imp (p := fun char => decide (char ≠ 'x')) (l := token)
        (x := 'x') (by rw [split]; exact List.mem_append_left _ inside)
      simp at passed

theorem Accepts.noPoint (accepted : Accepts limit token term) : ¬ PointInCoefficient token := by
  rintro ⟨before, after, rfl, _⟩
  exact accepted.form.noPoint (by simp)

theorem readTerm_eq_ok_iff : readTerm limit token = .ok term ↔ Accepts limit token term := by
  constructor
  · intro read
    unfold readTerm at read
    split at read
    · contradiction
    · split at read
      · contradiction
      · rename_i coeff exponent form
        split at read
        · contradiction
        · rename_i nonzero
          split at read
          · contradiction
          · rename_i within
            cases read
            exact ⟨rfl, term?_eq_some_iff.mp form, nonzero, Nat.le_of_not_lt within⟩
  · intro accepted
    have noPoint := mt pointInCoefficient_iff.mpr accepted.noPoint
    obtain ⟨text, form, nonzero, within⟩ := accepted
    simp only [readTerm, if_neg noPoint, term?_eq_some_iff.mpr form, if_neg nonzero,
      if_neg (Nat.not_lt.mpr within), ← text]

theorem readTerm_eq_error_iff : readTerm limit token = .error reason ↔ Refuses limit token reason := by
  constructor
  · intro read
    unfold readTerm at read
    split at read
    · rename_i point
      cases read
      exact .point (pointInCoefficient_iff.mpr point)
    · rename_i noPoint
      rw [← pointInCoefficient_iff] at noPoint
      split at read
      · rename_i unread
        cases read
        refine .noForm noPoint fun coeff exponent form => ?_
        rw [term?_eq_some_iff.mpr form] at unread
        contradiction
      · rename_i coeff exponent form
        have form := term?_eq_some_iff.mp form
        split at read
        · rename_i zero
          cases read
          rw [zero] at form
          exact .zero noPoint form
        · rename_i nonzero
          split at read
          · rename_i above
            cases read
            exact .above noPoint form nonzero above
          · contradiction
  · intro refused
    cases refused with
    | point point => simp only [readTerm, if_pos (pointInCoefficient_iff.mp point)]
    | noForm noPoint noForm =>
        have unread : term? token = none := by
          rw [Option.eq_none_iff_forall_ne_some]
          rintro ⟨coeff, exponent⟩ read
          exact noForm coeff exponent (term?_eq_some_iff.mp read)
        simp only [readTerm, if_neg (mt pointInCoefficient_iff.mpr noPoint), unread]
    | zero noPoint form =>
        simp only [readTerm, if_neg (mt pointInCoefficient_iff.mpr noPoint),
          term?_eq_some_iff.mpr form, if_pos]
    | above noPoint form nonzero above =>
        simp only [readTerm, if_neg (mt pointInCoefficient_iff.mpr noPoint),
          term?_eq_some_iff.mpr form, if_neg nonzero, if_pos above]

/-- Reading stops at the first token that is refused, and only there. -/
theorem readTerms_eq_refusal_iff {tokens : List (List Char)} :
    (readTerms limit tokens).2 = some reason ↔
      ∃ before token after, tokens = before ++ token :: after ∧
        (∀ earlier ∈ before, ∃ term, Accepts limit earlier term) ∧ Refuses limit token reason := by
  induction tokens with
  | nil => simp [readTerms]
  | cons token tokens ih =>
      cases read : readTerm limit token with
      | error found =>
          have refused := readTerm_eq_error_iff.mp read
          simp only [readTerms, read, Option.some.injEq]
          constructor
          · rintro rfl
            exact ⟨[], token, tokens, rfl, by simp, refused⟩
          · rintro ⟨before, other, after, split, accepted, otherRefused⟩
            cases before with
            | nil =>
                cases split
                rw [readTerm_eq_error_iff.mpr otherRefused] at read
                cases read
                rfl
            | cons first before =>
                cases split
                obtain ⟨term, accepted⟩ := accepted token List.mem_cons_self
                rw [readTerm_eq_ok_iff.mpr accepted] at read
                contradiction
      | ok term =>
          simp only [readTerms, read, ih]
          constructor
          · rintro ⟨before, other, after, rfl, accepted, refused⟩
            refine ⟨token :: before, other, after, rfl, ?_, refused⟩
            intro earlier member
            rcases List.mem_cons.mp member with rfl | later
            · exact ⟨term, readTerm_eq_ok_iff.mp read⟩
            · exact accepted earlier later
          · rintro ⟨before, other, after, split, accepted, refused⟩
            cases before with
            | nil =>
                cases split
                rw [readTerm_eq_error_iff.mpr refused] at read
                contradiction
            | cons first before =>
                cases split
                exact ⟨before, other, after, rfl,
                  fun earlier member => accepted earlier (List.mem_cons_of_mem _ member), refused⟩

theorem readTerms_eq_iff {tokens : List (List Char)} {terms : List ReadTerm} :
    readTerms limit tokens = (terms, none) ↔ List.Forall₂ (Accepts limit) tokens terms := by
  induction tokens generalizing terms with
  | nil => simp [readTerms, eq_comm]
  | cons token tokens ih =>
      cases read : readTerm limit token with
      | error reason =>
          simp only [readTerms, read]
          constructor
          · intro same
            cases same
          · intro accepted
            cases accepted with
            | cons first rest =>
                rw [readTerm_eq_ok_iff.mpr first] at read
                contradiction
      | ok term =>
          have first := readTerm_eq_ok_iff.mp read
          simp only [readTerms, read, Prod.mk.injEq]
          constructor
          · rintro ⟨rfl, none⟩
            exact .cons first (ih.mp (Prod.ext rfl none))
          · intro accepted
            cases accepted with
            | cons otherFirst rest =>
                rw [readTerm_eq_ok_iff.mpr otherFirst] at read
                cases read
                rw [ih.mpr rest]
                exact ⟨rfl, rfl⟩

theorem accepted_eq {text : List Char} {terms : List ReadTerm}
    (allAccepted : List.Forall₂ (Accepts limit) (pieces text) terms) : accepted limit text = terms := by
  rw [accepted, tokens_eq_pieces, readTerms_eq_iff.mpr allAccepted]

theorem exists_accepts {tokens : List (List Char)} {terms : List ReadTerm}
    (accepted : List.Forall₂ (Accepts limit) tokens terms) (member : term ∈ terms) :
    ∃ token, Accepts limit token term := by
  induction accepted with
  | nil => contradiction
  | cons first rest ih =>
      rcases List.mem_cons.mp member with rfl | later
      · exact ⟨_, first⟩
      · exact ih later

section Meaning

variable {α : Type} [Zero α] [BEq α] [Add α] [IntCast α]

theorem parse_eq_ok_iff {text : List Char} {map : TermMap α} :
    parse limit text = .ok map ↔ pieces text ≠ [] ∧
      ∃ terms, List.Forall₂ (Accepts limit) (pieces text) terms ∧
        map = TermMap.ofTerms (terms.map ReadTerm.term) := by
  rw [parse, tokens_eq_pieces]
  cases read : readTerms limit (pieces text) with
  | mk terms refusal =>
      cases refusal with
      | some reason =>
          simp only [reduceCtorEq, false_iff]
          rintro ⟨_, others, accepted, _⟩
          rw [readTerms_eq_iff.mpr accepted] at read
          cases read
      | none =>
          have accepted := readTerms_eq_iff.mp read
          cases terms with
          | nil =>
              simp only [reduceCtorEq, false_iff]
              rintro ⟨some, _⟩
              exact some (List.forall₂_nil_right_iff.mp accepted)
          | cons term terms =>
              have some : pieces text ≠ [] := by
                intro none
                rw [none] at accepted
                cases accepted
              simp only [Except.ok.injEq]
              constructor
              · rintro rfl
                exact ⟨some, _, accepted, rfl⟩
              · rintro ⟨_, others, otherAccepted, rfl⟩
                rw [readTerms_eq_iff.mpr otherAccepted] at read
                cases read
                rfl

theorem parse_eq_error_iff {text : List Char} :
    (parse limit text : Except ExpressionError (TermMap α)) = .error reason ↔
      (pieces text = [] ∧ reason = .noTerms) ∨
        ∃ before token after, pieces text = before ++ token :: after ∧
          (∀ earlier ∈ before, ∃ term, Accepts limit earlier term) ∧
          Refuses limit token reason := by
  rw [← readTerms_eq_refusal_iff, parse, tokens_eq_pieces]
  cases read : readTerms limit (pieces text) with
  | mk terms refusal =>
      cases refusal with
      | some found =>
          have some : pieces text ≠ [] := by
            intro none
            rw [none, readTerms] at read
            cases read
          simp [some]
      | none =>
          have accepted := readTerms_eq_iff.mp read
          cases terms with
          | nil =>
              have none := List.forall₂_nil_right_iff.mp accepted
              simp [none, eq_comm]
          | cons term terms =>
              have some : pieces text ≠ [] := by
                intro none
                rw [none] at accepted
                cases accepted
              simp [some]

/-- An expression is accepted exactly when it has a token and all its tokens are terms within the
limit. Each power then has what its coefficients add up to, unless that is zero. Otherwise the first
other token decides. -/
theorem parse_outcome (limit : Nat) (text : List Char) :
    (∀ map : TermMap α, parse limit text = .ok map ↔ pieces text ≠ [] ∧
      ∃ terms, List.Forall₂ (Accepts limit) (pieces text) terms ∧
        ∀ exponent, map.get? exponent =
          TermMap.total (Term.coefficients (terms.map ReadTerm.term) exponent)) ∧
    ∀ reason, (parse limit text : Except ExpressionError (TermMap α)) = .error reason ↔
      (pieces text = [] ∧ reason = .noTerms) ∨
        ∃ before token after, pieces text = before ++ token :: after ∧
          (∀ earlier ∈ before, ∃ term, Accepts limit earlier term) ∧
          Refuses limit token reason := by
  refine ⟨fun map => ?_, fun _ => parse_eq_error_iff⟩
  simp only [parse_eq_ok_iff, TermMap.eq_ofTerms_iff]

end Meaning

end LongDivision.Expression
