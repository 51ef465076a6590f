import LongDivision.Coefficient.Binary64
import LongDivision.Proofs.Dialogue.Run
import LongDivision.Proofs.Expression.Outcome
import LongDivision.Proofs.Expression.Spread
import LongDivision.Session

/-! The tokens that are named when an expression is read, in events for the terms that are accepted
and in the error for the one that is refused. They are pieces of what was typed.
-/

namespace LongDivision

open Transcript Dialogue

/-- The token that an error is about. -/
def ExpressionError.token? : ExpressionError → Option String
  | invalidTerm token => some token
  | nonIntegerCoefficient token => some token
  | zeroCoefficient token => some token
  | degreeTooLarge _ _ => none
  | noTerms => none

namespace Expression

variable {limit : Nat}

theorem Refuses.token_eq {token : List Char} {reason : ExpressionError} {named : String}
    (refused : Refuses limit token reason) (names : reason.token? = some named) :
    named = String.ofList token := by
  cases refused <;> cases names <;> rfl

/-- The texts of the accepted terms. -/
def acceptedTokens (limit : Nat) (text : List Char) : List (List Char) :=
  (accepted limit text).map fun term => term.token.toList

/-- Tokens are read from the first one on, and the refused one comes right after the accepted
ones. -/
theorem readTerms_isPrefix (limit : Nat) (tokens : List (List Char)) :
    ((readTerms limit tokens).1.map fun term => term.token.toList) ++
      (((readTerms limit tokens).2.bind ExpressionError.token?).map String.toList).toList <+:
        tokens := by
  induction tokens with
  | nil => exact List.prefix_rfl
  | cons token tokens ih =>
      cases read : readTerm limit token with
      | error reason =>
          have refused := readTerm_eq_error_iff.mp read
          simp only [readTerms, read, List.map_nil, List.nil_append, Option.bind_some]
          cases names : reason.token? with
          | none => exact List.nil_prefix
          | some named =>
              rw [refused.token_eq names]
              simp
      | ok term =>
          have accepts := readTerm_eq_ok_iff.mp read
          simp only [readTerms, read, List.map_cons, List.cons_append, accepts.text,
            String.toList_ofList]
          exact (List.prefix_cons_inj token).mpr ih

variable {text : List Char} {reason : ExpressionError} {named : String}

/-- All tokens are read if all are accepted. -/
theorem acceptedTokens_of_ok {map : TermMap Float} (read : parse limit text = .ok map) :
    acceptedTokens limit text = tokens text := by
  obtain ⟨_, terms, accepts, _⟩ := parse_eq_ok_iff.mp read
  have texts : List.Forall₂ (· = ·) (pieces text) (terms.map fun term => term.token.toList) := by
    rw [List.forall₂_map_right_iff]
    refine accepts.imp fun token term accepted => ?_
    rw [accepted.text, String.toList_ofList]
  rw [List.forall₂_eq_eq_eq] at texts
  rw [acceptedTokens, accepted_eq accepts, tokens_eq_pieces, texts]

theorem acceptedTokens_of_error
    (failed : (parse limit text : Except ExpressionError (TermMap Float)) = .error reason)
    (names : reason.token? = some named) :
    acceptedTokens limit text ++ [named.toList] <+: tokens text := by
  have refusal : (readTerms limit (tokens text)).2 = some reason := by
    rw [tokens_eq_pieces, readTerms_eq_refusal_iff]
    rcases parse_eq_error_iff.mp failed with ⟨_, rfl⟩ | refused
    · contradiction
    · exact refused
  have visited := readTerms_isPrefix limit (tokens text)
  rw [refusal, Option.bind_some, names] at visited
  exact visited

theorem token_isInfix_of_accepted {term : ReadTerm} (member : term ∈ accepted limit text) :
    term.token.toList <:+: withoutBlanks text := by
  have visited : acceptedTokens limit text <+: tokens text :=
    (List.prefix_append _ _).trans (readTerms_isPrefix limit (tokens text))
  have token : term.token.toList ∈ acceptedTokens limit text := List.mem_map.mpr ⟨term, member, rfl⟩
  exact (spread_tokens text).isInfix (visited.mem token)

end Expression

open Expression

theorem exists_term_of_readOperand {limit : Nat} {operand : Operand} {input : List UInt8}
    {text : List Char} {event : Event Float}
    (decoded : String.fromUTF8? (firstLine input).toByteArray = some (String.ofList text))
    (reported : event ∈ ((Session.readOperand limit operand).run input).events) :
    ∃ term ∈ accepted limit text, event = .termRead term := by
  simp only [Session.readOperand, ask, bind, andThen, run, decoded] at reported
  split at reported
  · contradiction
  · rw [run_andThen, run_logAll, events_followedBy_of_ok rfl, run_ofExcept, List.append_nil,
      String.toList_ofList] at reported
    obtain ⟨term, member, rfl⟩ := List.mem_map.mp reported
    exact ⟨term, member, rfl⟩

/-- The tokens hold the characters of a text but for blanks and plus signs, in their order. They are
cut at plus signs and in front of minus signs, and read from the first one on. What is named by an
error or an event is one of them, and so a piece of the text without its blanks. -/
theorem tokens_faithful (text : List Char) :
    (tokens text).flatten = (withoutBlanks text).filter (· ≠ '+') ∧
    (∀ token ∈ tokens text, token ≠ [] ∧ (∀ char ∈ token, char ≠ '+' ∧ isBlank char = false) ∧
      '-' ∉ token.tail) ∧
    (∀ before token next after, tokens text = before ++ token :: next :: after →
      ∃ front count back,
        withoutBlanks text = front ++ token ++ List.replicate count '+' ++ next ++ back ∧
        front.filter (· ≠ '+') = before.flatten ∧ back.filter (· ≠ '+') = after.flatten ∧
        (0 < count ∨ next.head? = some '-')) ∧
    ∀ limit,
      (∀ map : TermMap Float, parse limit text = .ok map →
        acceptedTokens limit text = tokens text) ∧
      (∀ reason named,
        (parse limit text : Except ExpressionError (TermMap Float)) = .error reason →
        reason.token? = some named →
        acceptedTokens limit text ++ [named.toList] <+: tokens text ∧
          named.toList <:+: withoutBlanks text) ∧
      ∀ operand input,
        String.fromUTF8? (firstLine input).toByteArray = some (String.ofList text) →
        ∀ event ∈ ((Session.readOperand (α := Float) limit operand).run input).events,
          ∃ term ∈ accepted limit text, event = .termRead term ∧
            term.token.toList <:+: withoutBlanks text := by
  have spread := spread_tokens text
  refine ⟨spread.flatten_eq, ?_, ?_, fun limit => ⟨fun map => acceptedTokens_of_ok, ?_, ?_⟩⟩
  · intro token member
    have isToken := spread.isToken token member
    refine ⟨isToken.nonempty, fun char inside => ?_, isToken.noInnerMinus⟩
    have kept : char ∈ (withoutBlanks text).filter (· ≠ '+') := by
      rw [← spread.flatten_eq]
      exact List.mem_flatten_of_mem member inside
    obtain ⟨typed, notPlus⟩ := List.mem_filter.mp kept
    exact ⟨by simpa using notPlus, by simpa using (List.mem_filter.mp typed).2⟩
  · intro before token next after split
    rw [split] at spread
    exact spread.exists_between
  · intro reason named failed names
    have visited := acceptedTokens_of_error failed names
    exact ⟨visited, spread.isInfix (visited.mem (List.mem_append_right _ List.mem_cons_self))⟩
  · intro operand input decoded event reported
    obtain ⟨term, member, rfl⟩ := exists_term_of_readOperand decoded reported
    exact ⟨term, member, rfl, token_isInfix_of_accepted member⟩

/-- A minus sign in front of another one is a token of its own, and so it is refused. The ones that
follow are tokens as well, but are not read. -/
theorem tokens_faithful_of_repeated_signs :
    tokens "x --3*x^-2\n".toList = [['x'], ['-']] ++ ['-', '3', '*', 'x', '^'] :: ['-', '2'] :: [] ∧
    (∃ front count back, withoutBlanks "x --3*x^-2\n".toList =
        front ++ ['-', '3', '*', 'x', '^'] ++ List.replicate count '+' ++ ['-', '2'] ++ back ∧
      front.filter (· ≠ '+') = [['x'], ['-']].flatten) ∧
    (parse 9 "x --3*x^-2\n".toList : Except ExpressionError (TermMap Float)) =
      .error (.invalidTerm "-") ∧
    acceptedTokens 9 "x --3*x^-2\n".toList ++ [['-']] <+: tokens "x --3*x^-2\n".toList ∧
    String.fromUTF8? (firstLine "x --3*x^-2\n".toUTF8.data.toList).toByteArray =
      some (String.ofList "x --3*x^-2\n".toList) ∧
    .termRead ⟨"x", 1, 1⟩ ∈ ((Session.readOperand (α := Float) 9 .dividend).run
      "x --3*x^-2\n".toUTF8.data.toList).events ∧
    ∃ term ∈ accepted 9 "x --3*x^-2\n".toList, (.termRead ⟨"x", 1, 1⟩ : Event Float) = .termRead term ∧
      term.token.toList <:+: withoutBlanks "x --3*x^-2\n".toList := by
  have cutAt : tokens "x --3*x^-2\n".toList =
      [['x'], ['-']] ++ ['-', '3', '*', 'x', '^'] :: ['-', '2'] :: [] := rfl
  have failed : (parse 9 "x --3*x^-2\n".toList : Except ExpressionError (TermMap Float)) =
      .error (.invalidTerm "-") := rfl
  have decoded : String.fromUTF8? (firstLine "x --3*x^-2\n".toUTF8.data.toList).toByteArray =
      some (String.ofList "x --3*x^-2\n".toList) := rfl
  have events : ((Session.readOperand (α := Float) 9 .dividend).run
      "x --3*x^-2\n".toUTF8.data.toList).events = [.termRead ⟨"x", 1, 1⟩] := rfl
  have reported : .termRead ⟨"x", 1, 1⟩ ∈ ((Session.readOperand (α := Float) 9 .dividend).run
      "x --3*x^-2\n".toUTF8.data.toList).events := by
    rw [events]
    exact List.mem_cons_self
  obtain ⟨_, _, neighbours, reading⟩ := tokens_faithful "x --3*x^-2\n".toList
  obtain ⟨front, count, back, between, passed, _⟩ := neighbours _ _ _ _ cutAt
  exact ⟨cutAt, ⟨front, count, back, between, passed⟩, failed,
    ((reading 9).2.1 _ "-" failed rfl).1, decoded, reported,
    (reading 9).2.2 .dividend _ decoded _ reported⟩

end LongDivision
