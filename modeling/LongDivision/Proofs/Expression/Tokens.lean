import LongDivision.Expression.Token

/-! The tokens of an expression, described by three passes over its text: blanks are dropped, each
minus sign gets a plus sign in front, and the result is split at the plus signs.
-/

namespace LongDivision.Expression

def separateSigns (text : List Char) : List Char :=
  text.flatMap fun char => if char = '-' then ['+', '-'] else [char]

def pieces (text : List Char) : List (List Char) :=
  ((separateSigns (text.filter fun char => !isBlank char)).splitOn '+').filter (· ≠ [])

theorem separateSigns_append (left right : List Char) :
    separateSigns (left ++ right) = separateSigns left ++ separateSigns right :=
  List.flatMap_append

theorem cut_eq_splitOn (text : List Char) :
    (cut text).1 :: (cut text).2 = (separateSigns text).splitOn '+' := by
  induction text with
  | nil => rfl
  | cons char rest ih =>
      by_cases plus : char = '+'
      · subst plus
        have separated : separateSigns ('+' :: rest) = '+' :: separateSigns rest := rfl
        simp [cut, separated, List.splitOn_cons_eq_if_modifyHead, ← ih]
      · by_cases minus : char = '-'
        · subst minus
          have separated : separateSigns ('-' :: rest) = '+' :: '-' :: separateSigns rest := rfl
          simp [cut, separated, List.splitOn_cons_eq_if_modifyHead, ← ih]
        · have separated : separateSigns (char :: rest) = char :: separateSigns rest := by
            simp [separateSigns, minus]
          simp [cut, plus, minus, separated, List.splitOn_cons_eq_if_modifyHead, ← ih]

theorem tokens_eq_pieces (text : List Char) : tokens text = pieces text := by
  have nonempty : (fun token : List Char => !token.isEmpty) = fun token => decide (token ≠ []) := by
    funext token
    cases token <;> rfl
  simp only [tokens, pieces, ← cut_eq_splitOn, nonempty]

end LongDivision.Expression
