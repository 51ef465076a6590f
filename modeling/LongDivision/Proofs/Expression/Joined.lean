import LongDivision.Proofs.Expression.Outcome
import LongDivision.Proofs.TermMap.Exact

/-! Two expressions in a row. No token is cut or merged where they meet, so that the first fault
decides as if each were read alone, and their polynomials add up.
-/

namespace LongDivision.Expression

open Term TermMap

/-- Two texts with a plus sign between them, or with nothing between them if the second one starts
with a minus sign. -/
inductive Joined (left right : List Char) : List Char → Prop where
  | plus : Joined left right (left ++ '+' :: right)
  | minus (starts : right.find? (fun char => !isBlank char) = some '-') :
      Joined left right (left ++ right)

section Tokens

variable {left right text : List Char}

theorem splitOn_append_plus (left right : List Char) :
    ((left ++ '+' :: right).splitOn '+').filter (· ≠ []) =
      (left.splitOn '+').filter (· ≠ []) ++ (right.splitOn '+').filter (· ≠ []) := by
  rw [List.splitOn_append_cons_of_beq _ _ (beq_self_eq_true _), List.filter_append]

/-- An empty token in front is none. -/
theorem splitOn_plus (text : List Char) :
    (('+' :: text).splitOn '+').filter (· ≠ []) = (text.splitOn '+').filter (· ≠ []) :=
  splitOn_append_plus [] text

theorem pieces_append_plus (left right : List Char) :
    pieces (left ++ '+' :: right) = pieces left ++ pieces right := by
  have separated (rest : List Char) : separateSigns ('+' :: rest) = '+' :: separateSigns rest := rfl
  rw [pieces, List.filter_append, List.filter_cons_of_pos (by decide), separateSigns_append,
    separated, splitOn_append_plus]
  rfl

theorem pieces_append_minus (left : List Char)
    (starts : right.find? (fun char => !isBlank char) = some '-') :
    pieces (left ++ right) = pieces left ++ pieces right := by
  obtain ⟨rest, filtered⟩ : ∃ rest, right.filter (fun char => !isBlank char) = '-' :: rest := by
    rw [← List.head?_filter, List.head?_eq_some_iff] at starts
    exact starts
  -- The plus sign in front of the minus sign ends the last token of the first text.
  have separated : separateSigns ('-' :: rest) = '+' :: '-' :: separateSigns rest := rfl
  rw [pieces, pieces, pieces, List.filter_append, separateSigns_append, filtered, separated,
    splitOn_append_plus, splitOn_plus]

theorem Joined.pieces_eq (joined : Joined left right text) :
    pieces text = pieces left ++ pieces right := by
  cases joined with
  | plus => exact pieces_append_plus left right
  | minus starts => exact pieces_append_minus left starts

end Tokens

section Outcome

variable {limit : Nat} {left right text : List Char} {reason : ExpressionError}
variable {α : Type} [Zero α] [BEq α] [Add α] [IntCast α]

theorem parse_eq_of_pieces (same : pieces left = pieces right) :
    (parse limit left : Except ExpressionError (TermMap α)) = parse limit right := by
  rw [parse, parse, tokens_eq_pieces, tokens_eq_pieces, same]

theorem not_refuses_noTerms {token : List Char} : ¬ Refuses limit token .noTerms := by
  intro refused
  cases refused

theorem parse_eq_noTerms_iff :
    (parse limit text : Except ExpressionError (TermMap α)) = .error .noTerms ↔ pieces text = [] := by
  rw [parse_eq_error_iff]
  constructor
  · intro failed
    obtain ⟨empty, _⟩ | ⟨_, _, _, _, _, refused⟩ := failed
    · exact empty
    · exact absurd refused not_refuses_noTerms
  · intro empty
    exact .inl ⟨empty, rfl⟩

/-- Any other error is that of a token. -/
theorem parse_eq_fault_iff (fault : reason ≠ .noTerms) :
    (parse limit text : Except ExpressionError (TermMap α)) = .error reason ↔
      ∃ before token after, pieces text = before ++ token :: after ∧
        (∀ earlier ∈ before, ∃ term, Accepts limit earlier term) ∧ Refuses limit token reason := by
  rw [parse_eq_error_iff, or_iff_right]
  intro ⟨_, same⟩
  exact fault same

theorem Joined.parse_of_left_fault (joined : Joined left right text) (fault : reason ≠ .noTerms)
    (failed : (parse limit left : Except ExpressionError (TermMap α)) = .error reason) :
    (parse limit text : Except ExpressionError (TermMap α)) = .error reason := by
  obtain ⟨before, token, after, split, accepted, refused⟩ := (parse_eq_fault_iff fault).mp failed
  refine (parse_eq_fault_iff fault).mpr ⟨before, token, after ++ pieces right, ?_, accepted, refused⟩
  rw [joined.pieces_eq, split, List.append_assoc, List.cons_append]

theorem Joined.parse_of_left_empty (joined : Joined left right text)
    (empty : (parse limit left : Except ExpressionError (TermMap α)) = .error .noTerms) :
    (parse limit text : Except ExpressionError (TermMap α)) = parse limit right := by
  apply parse_eq_of_pieces
  rw [joined.pieces_eq, parse_eq_noTerms_iff.mp empty, List.nil_append]

theorem Joined.parse_of_right_empty (joined : Joined left right text)
    (empty : (parse limit right : Except ExpressionError (TermMap α)) = .error .noTerms) :
    (parse limit text : Except ExpressionError (TermMap α)) = parse limit left := by
  apply parse_eq_of_pieces
  rw [joined.pieces_eq, parse_eq_noTerms_iff.mp empty, List.append_nil]

theorem exists_term_of_accepts {tokens : List (List Char)} {terms : List ReadTerm}
    (accepted : List.Forall₂ (Accepts limit) tokens terms) :
    ∀ token ∈ tokens, ∃ term, Accepts limit token term := by
  induction accepted with
  | nil => simp
  | cons first rest ih => exact List.forall_mem_cons.mpr ⟨⟨_, first⟩, ih⟩

theorem Joined.parse_of_right_fault (joined : Joined left right text) (fault : reason ≠ .noTerms)
    {map : TermMap α} (read : parse limit left = .ok map)
    (failed : (parse limit right : Except ExpressionError (TermMap α)) = .error reason) :
    (parse limit text : Except ExpressionError (TermMap α)) = .error reason := by
  obtain ⟨_, terms, leftAccepted, _⟩ := parse_eq_ok_iff.mp read
  obtain ⟨before, token, after, split, accepted, refused⟩ := (parse_eq_fault_iff fault).mp failed
  refine (parse_eq_fault_iff fault).mpr ⟨pieces left ++ before, token, after, ?_, ?_, refused⟩
  · rw [joined.pieces_eq, split, List.append_assoc]
  · exact List.forall_mem_append.mpr ⟨exists_term_of_accepts leftAccepted, accepted⟩

end Outcome

section Sums

variable {limit : Nat} {left right text : List Char} {map other : TermMap Float}

/-- The coefficients that an expression has for a power, as far as it is accepted. -/
def integersAt (limit : Nat) (text : List Char) (exponent : Nat) : List Int :=
  coefficients ((accepted limit text).map ReadTerm.term) exponent

theorem coefficients_term (terms : List ReadTerm) (exponent : Nat) :
    coefficients (terms.map ReadTerm.term : List (Term Float)) exponent =
      (coefficients (terms.map ReadTerm.term) exponent).map Int.cast := by
  simp only [coefficients, List.filter_map, List.map_map]
  rfl

theorem get?_of_parse (read : parse limit text = .ok map) (exponent : Nat) :
    map.get? exponent = total ((integersAt limit text exponent).map Int.cast) := by
  obtain ⟨_, terms, allAccepted, rfl⟩ := parse_eq_ok_iff.mp read
  rw [get?_ofTerms, coefficients_term, integersAt, accepted_eq allAccepted]

theorem Joined.parse_of_both (joined : Joined left right text) (read : parse limit left = .ok map)
    (otherRead : parse limit right = .ok other) :
    (∃ sum : TermMap Float, parse limit text = .ok sum) ∧
      ∀ exponent, integersAt limit text exponent =
        integersAt limit left exponent ++ integersAt limit right exponent := by
  obtain ⟨some, terms, leftAccepted, _⟩ := parse_eq_ok_iff.mp read
  obtain ⟨_, others, rightAccepted, _⟩ := parse_eq_ok_iff.mp otherRead
  have allAccepted : List.Forall₂ (Accepts limit) (pieces text) (terms ++ others) := by
    rw [joined.pieces_eq]
    exact List.rel_append leftAccepted rightAccepted
  constructor
  · refine ⟨_, parse_eq_ok_iff.mpr ⟨?_, _, allAccepted, rfl⟩⟩
    rw [joined.pieces_eq]
    exact List.append_ne_nil_of_left_ne_nil some _
  · intro exponent
    rw [integersAt, integersAt, integersAt, accepted_eq allAccepted, accepted_eq leftAccepted,
      accepted_eq rightAccepted, List.map_append, coefficients_append]

theorem Joined.get?_of_both (joined : Joined left right text) {sum : TermMap Float}
    (read : parse limit left = .ok map) (otherRead : parse limit right = .ok other)
    (sumRead : parse limit text = .ok sum) {exponent : Nat}
    (exact : AddUpExactly (integersAt limit text exponent))
    (otherExact : AddUpExactly (integersAt limit right exponent)) :
    sum.get? exponent =
      entry ((map.get? exponent).getD 0 + (other.get? exponent).getD 0) := by
  have appended := (joined.parse_of_both read otherRead).2 exponent
  rw [appended] at exact
  rw [get?_of_parse sumRead, get?_of_parse read, get?_of_parse otherRead, appended]
  exact total_append_integers exact otherExact

end Sums

/-- An expression of two parts fails with the error of the first part that has one, and a part
without terms does not count. Of two parts that are read, the polynomials add up, as long as
floating-point numbers can add up the integers that the parts are made from. -/
theorem parse_joined {limit : Nat} {left right text : List Char} (joined : Joined left right text) :
    (∀ reason, reason ≠ .noTerms →
      (parse limit left : Except ExpressionError (TermMap Float)) = .error reason →
      (parse limit text : Except ExpressionError (TermMap Float)) = .error reason) ∧
    ((parse limit left : Except ExpressionError (TermMap Float)) = .error .noTerms →
      (parse limit text : Except ExpressionError (TermMap Float)) = parse limit right) ∧
    ∀ map : TermMap Float, parse limit left = .ok map →
      (∀ reason, reason ≠ .noTerms →
        (parse limit right : Except ExpressionError (TermMap Float)) = .error reason →
        (parse limit text : Except ExpressionError (TermMap Float)) = .error reason) ∧
      ((parse limit right : Except ExpressionError (TermMap Float)) = .error .noTerms →
        parse limit text = .ok map) ∧
      ∀ other : TermMap Float, parse limit right = .ok other →
        ∃ sum : TermMap Float, parse limit text = .ok sum ∧
          ∀ exponent, AddUpExactly (integersAt limit text exponent) →
            AddUpExactly (integersAt limit right exponent) →
            sum.get? exponent =
              entry ((map.get? exponent).getD 0 + (other.get? exponent).getD 0) := by
  refine ⟨fun reason => joined.parse_of_left_fault, joined.parse_of_left_empty, ?_⟩
  intro map read
  refine ⟨fun reason fault => joined.parse_of_right_fault fault read, ?_, ?_⟩
  · intro empty
    rw [joined.parse_of_right_empty empty, read]
  · intro other otherRead
    obtain ⟨sum, sumRead⟩ := (joined.parse_of_both read otherRead).1
    exact ⟨sum, sumRead, fun exponent => joined.get?_of_both read otherRead sumRead⟩

theorem parse_joined_of_minus :
    Joined ['x', '+', '3'] [' ', '-', '3'] ['x', '+', '3', ' ', '-', '3'] ∧
    AddUpExactly (integersAt 1 ['x', '+', '3', ' ', '-', '3'] 0) ∧
    AddUpExactly (integersAt 1 [' ', '-', '3'] 0) ∧
    ∃ map other sum : TermMap Float, parse 1 ['x', '+', '3'] = .ok map ∧
      parse 1 [' ', '-', '3'] = .ok other ∧ parse 1 ['x', '+', '3', ' ', '-', '3'] = .ok sum ∧
      sum.get? 0 = entry ((map.get? 0).getD 0 + (other.get? 0).getD 0) := by
  have joined : Joined ['x', '+', '3'] [' ', '-', '3'] ['x', '+', '3', ' ', '-', '3'] :=
    .minus (by decide)
  have both : integersAt 1 ['x', '+', '3', ' ', '-', '3'] 0 = [3, -3] := by decide
  have last : integersAt 1 [' ', '-', '3'] 0 = [-3] := by decide
  have exact : AddUpExactly [3, -3] := addUpExactly_of_small (by decide)
  have otherExact : AddUpExactly [-3] := addUpExactly_of_small (by decide)
  rw [← both] at exact
  rw [← last] at otherExact
  have read : parse 1 ['x', '+', '3'] = .ok (ofTerms [⟨1, 1⟩, ⟨0, 3⟩] : TermMap Float) := rfl
  have otherRead : parse 1 [' ', '-', '3'] = .ok (ofTerms [⟨0, -3⟩] : TermMap Float) := rfl
  obtain ⟨sum, sumRead, sums⟩ := ((parse_joined joined).2.2 _ read).2.2 _ otherRead
  exact ⟨joined, exact, otherExact, _, _, sum, read, otherRead, sumRead,
    sums 0 exact otherExact⟩

end LongDivision.Expression
