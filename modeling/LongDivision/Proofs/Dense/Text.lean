import LongDivision.Dense.Text
import LongDivision.Proofs.Dense.Terms

/-! The text of a row depends on its nonzero terms only.
-/

namespace LongDivision.Dense

variable {α : Type} [Zero α] [BEq α] [Written α]

def joinedTermText (term : Term α) : String :=
  Written.signed term.coeff ++ powerText term.exponent

def leadingTermText (term : Term α) : String :=
  Written.plain term.coeff ++ powerText term.exponent

theorem termTexts_false (row : List α) :
    termTexts false row = (rowTerms row).map joinedTermText := by
  induction row with
  | nil => rfl
  | cons slot lower ih =>
      rw [termTexts, rowTerms]
      split
      · exact ih
      · rw [ih, List.map_cons]
        rfl

theorem termTexts_true {row : List α} {term : Term α} {terms : List (Term α)}
    (nonzero : rowTerms row = term :: terms) :
    termTexts true row = leadingTermText term :: terms.map joinedTermText := by
  induction row with
  | nil => contradiction
  | cons slot lower ih =>
      rw [rowTerms] at nonzero
      rw [termTexts]
      split
      · rename_i zero
        rw [if_pos zero] at nonzero
        exact ih nonzero
      · rename_i present
        rw [if_neg present] at nonzero
        cases nonzero
        rw [termTexts_false]
        rfl

theorem termTexts_true_of_zeros {row : List α} (zeros : rowTerms row = []) :
    termTexts true row = [] := by
  induction row with
  | nil => rfl
  | cons slot lower ih =>
      rw [rowTerms] at zeros
      rw [termTexts]
      split
      · rename_i zero
        rw [if_pos zero] at zeros
        exact ih zeros
      · rename_i present
        rw [if_neg present] at zeros
        contradiction

theorem text_congr {left right : Dense α} (same : left.nonzeroTerms = right.nonzeroTerms) :
    left.text = right.text := by
  rw [text, text]
  cases nonzero : right.nonzeroTerms with
  | nil => rw [termTexts_true_of_zeros (same.trans nonzero), termTexts_true_of_zeros nonzero]
  | cons term terms => rw [termTexts_true (same.trans nonzero), termTexts_true nonzero]

theorem toList_text {poly : Dense α} {term : Term α} {terms : List (Term α)}
    (nonzero : poly.nonzeroTerms = term :: terms) :
    poly.text.toList =
      (leadingTermText term).toList ++ terms.flatMap fun term => (joinedTermText term).toList := by
  rw [text, termTexts_true nonzero, String.toList_join, List.flatMap_cons, List.flatMap_map]

end LongDivision.Dense
