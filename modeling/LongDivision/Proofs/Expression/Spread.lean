import LongDivision.Expression.Token
import Mathlib.Data.List.Infix

/-! Where the tokens of an expression stand in its text. Around them are only blanks and plus signs,
and a token ends where a sign follows.
-/

namespace LongDivision.Expression

/-- A nonempty text without plus signs that has no minus sign but at its start. -/
structure IsToken (token : List Char) : Prop where
  nonempty : token ≠ []
  noPlus : '+' ∉ token
  noInnerMinus : '-' ∉ token.tail

theorem IsToken.filter_eq {token : List Char} (isToken : IsToken token) :
    token.filter (· ≠ '+') = token := by
  rw [List.filter_eq_self]
  intro char member
  simp only [decide_eq_true_eq]
  rintro rfl
  exact isToken.noPlus member

/-- What may follow a token: a sign, or nothing. -/
def FollowsToken (text : List Char) : Prop :=
  ∀ char ∈ text.head?, char = '+' ∨ char = '-'

/-- Tokens stand in a text, in their order and with nothing but plus signs around them. -/
inductive Spread : List (List Char) → List Char → Prop where
  | nil : Spread [] []
  | plus {tokens : List (List Char)} {text : List Char} (spread : Spread tokens text) :
      Spread tokens ('+' :: text)
  | token {token text : List Char} {tokens : List (List Char)} (isToken : IsToken token)
      (follows : FollowsToken text) (spread : Spread tokens text) :
      Spread (token :: tokens) (token ++ text)

def withoutBlanks (text : List Char) : List Char :=
  text.filter fun char => !isBlank char

section Cut

variable {piece rest : List Char} {pieces : List (List Char)}

/-- An empty piece is no token. -/
theorem spread_piece (noPlus : '+' ∉ piece) (noInnerMinus : '-' ∉ piece.tail)
    (follows : FollowsToken rest) (spread : Spread (pieces.filter fun token => !token.isEmpty) rest) :
    Spread ((piece :: pieces).filter fun token => !token.isEmpty) (piece ++ rest) := by
  cases piece with
  | nil => exact spread
  | cons char piece =>
      have isToken : IsToken (char :: piece) := ⟨List.cons_ne_nil _ _, noPlus, noInnerMinus⟩
      exact .token isToken follows spread

/-- The piece that a text starts with has no sign, and the tokens after it stand in the rest. -/
theorem spread_cut (text : List Char) :
    ∃ rest, text = (cut text).1 ++ rest ∧ '+' ∉ (cut text).1 ∧ '-' ∉ (cut text).1 ∧
      FollowsToken rest ∧ Spread ((cut text).2.filter fun token => !token.isEmpty) rest := by
  induction text with
  | nil => exact ⟨[], rfl, by simp [cut], by simp [cut], by simp [FollowsToken], .nil⟩
  | cons char text ih =>
      obtain ⟨rest, split, noPlus, noMinus, follows, spread⟩ := ih
      have noInnerMinus : '-' ∉ (cut text).1.tail := mt List.mem_of_mem_tail noMinus
      by_cases plus : char = '+'
      · -- The piece behind the plus sign is now one of those after the first.
        subst plus
        have started : Spread ((cut ('+' :: text)).2.filter fun token => !token.isEmpty) text := by
          have inside := spread_piece noPlus noInnerMinus follows spread
          rwa [← split] at inside
        exact ⟨'+' :: text, rfl, by simp [cut], by simp [cut], by simp [FollowsToken], .plus started⟩
      · by_cases minus : char = '-'
        · -- The same, but the sign belongs to the piece behind it.
          subst minus
          have noSign : '+' ∉ '-' :: (cut text).1 := by simpa using noPlus
          have started : Spread ((cut ('-' :: text)).2.filter fun token => !token.isEmpty)
              ('-' :: text) := by
            have inside := @spread_piece ('-' :: (cut text).1) _ _ noSign noMinus follows spread
            rwa [List.cons_append, ← split] at inside
          exact ⟨'-' :: text, rfl, by simp [cut], by simp [cut], by simp [FollowsToken], started⟩
        · refine ⟨rest, ?_, ?_, ?_, follows, ?_⟩
          · simp only [cut, if_neg plus, if_neg minus, List.cons_append, ← split]
          · simpa [cut, plus, minus, Ne.symm plus] using noPlus
          · simpa [cut, plus, minus, Ne.symm minus] using noMinus
          · simpa only [cut, if_neg plus, if_neg minus] using spread

theorem spread_tokens (text : List Char) : Spread (tokens text) (withoutBlanks text) := by
  obtain ⟨rest, split, noPlus, noMinus, follows, spread⟩ := spread_cut (withoutBlanks text)
  have inside := spread_piece noPlus (mt List.mem_of_mem_tail noMinus) follows spread
  rw [← split] at inside
  exact inside

end Cut

namespace Spread

variable {token next text : List Char} {tokens before after : List (List Char)}

theorem flatten_eq (spread : Spread tokens text) : tokens.flatten = text.filter (· ≠ '+') := by
  induction spread with
  | nil => rfl
  | plus _ ih => rw [ih, List.filter_cons_of_neg (by simp)]
  | token isToken _ _ ih => rw [List.flatten_cons, List.filter_append, isToken.filter_eq, ih]

theorem isToken (spread : Spread tokens text) : ∀ token ∈ tokens, IsToken token := by
  induction spread with
  | nil => simp
  | plus _ ih => exact ih
  | token isToken _ _ ih => exact List.forall_mem_cons.mpr ⟨isToken, ih⟩

/-- The first token, the plus signs in front of it and what follows it. -/
theorem exists_first (spread : Spread (token :: tokens) text) :
    ∃ count rest, text = List.replicate count '+' ++ (token ++ rest) ∧ IsToken token ∧
      FollowsToken rest ∧ Spread tokens rest := by
  generalize all : token :: tokens = found at spread
  induction spread with
  | nil => contradiction
  | plus _ ih =>
      obtain ⟨count, rest, rfl, isToken, follows, spread⟩ := ih all
      exact ⟨count + 1, rest, rfl, isToken, follows, spread⟩
  | token isToken follows spread _ =>
      cases all
      exact ⟨0, _, rfl, isToken, follows, spread⟩

/-- The tokens in front take a part of the text of their own. -/
theorem exists_front (before : List (List Char)) (spread : Spread (before ++ tokens) text) :
    ∃ front rest, text = front ++ rest ∧ front.filter (· ≠ '+') = before.flatten ∧
      Spread tokens rest := by
  induction before generalizing text with
  | nil => exact ⟨[], text, rfl, rfl, spread⟩
  | cons first before ih =>
      obtain ⟨count, rest, rfl, isToken, follows, spread⟩ := spread.exists_first
      obtain ⟨front, back, rfl, passed, spread⟩ := ih spread
      refine ⟨List.replicate count '+' ++ (first ++ front), back, by simp, ?_, spread⟩
      rw [List.filter_append, List.filter_replicate_of_neg (by simp), List.nil_append,
        List.filter_append, isToken.filter_eq, passed, List.flatten_cons]

theorem isInfix (spread : Spread tokens text) (member : token ∈ tokens) : token <:+: text := by
  obtain ⟨before, after, rfl⟩ := List.append_of_mem member
  obtain ⟨front, rest, rfl, _, spread⟩ := spread.exists_front before
  obtain ⟨count, back, rfl, _⟩ := spread.exists_first
  exact ⟨front ++ List.replicate count '+', back, by simp⟩

/-- Between two tokens is a plus sign, unless the second one starts with a minus sign. -/
theorem exists_between (spread : Spread (before ++ token :: next :: after) text) :
    ∃ front count back, text = front ++ token ++ List.replicate count '+' ++ next ++ back ∧
      front.filter (· ≠ '+') = before.flatten ∧ back.filter (· ≠ '+') = after.flatten ∧
      (0 < count ∨ next.head? = some '-') := by
  obtain ⟨front, rest, rfl, passed, spread⟩ := spread.exists_front before
  obtain ⟨ahead, rest, rfl, _, follows, spread⟩ := spread.exists_first
  obtain ⟨count, back, rfl, isToken, _, spread⟩ := spread.exists_first
  refine ⟨front ++ List.replicate ahead '+', count, back, by simp, ?_, spread.flatten_eq.symm, ?_⟩
  · rw [List.filter_append, List.filter_replicate_of_neg (by simp), List.append_nil, passed]
  · cases count with
    | succ count => exact .inl (Nat.succ_pos count)
    | zero =>
        -- What follows the first token is the second one, so that starts with a sign.
        obtain ⟨char, next, rfl⟩ := List.exists_cons_of_ne_nil isToken.nonempty
        have sign : char = '+' ∨ char = '-' := follows char rfl
        rcases sign with rfl | rfl
        · exact absurd List.mem_cons_self isToken.noPlus
        · exact .inr rfl

end Spread

end LongDivision.Expression
