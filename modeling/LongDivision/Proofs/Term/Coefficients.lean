import LongDivision.Proofs.Term.Lookup

/-! The coefficients that a list of terms has for one power. Powers do not mix: what happens to one of
them is told by its own coefficients, in their order.
-/

namespace LongDivision.Term

variable {α β : Type} {terms others : List (Term α)} {term : Term α} {exponent : Nat}

/-- The coefficients that a list has for one power, in their order. -/
def coefficients (terms : List (Term α)) (exponent : Nat) : List α :=
  (terms.filter (·.exponent = exponent)).map (·.coeff)

theorem coefficients_cons (term : Term α) (terms : List (Term α)) (exponent : Nat) :
    coefficients (term :: terms) exponent =
      if term.exponent = exponent then term.coeff :: coefficients terms exponent
      else coefficients terms exponent := by
  by_cases same : term.exponent = exponent
  · simp [coefficients, same]
  · simp [coefficients, same]

theorem coefficients_append (first second : List (Term α)) (exponent : Nat) :
    coefficients (first ++ second) exponent =
      coefficients first exponent ++ coefficients second exponent := by
  rw [coefficients, List.filter_append, List.map_append, coefficients, coefficients]

theorem coefficients_perm (permuted : terms.Perm others) (exponent : Nat) :
    (coefficients terms exponent).Perm (coefficients others exponent) :=
  (permuted.filter _).map _

theorem coefficients_eq_nil_iff :
    coefficients terms exponent = [] ↔ ∀ term ∈ terms, term.exponent ≠ exponent := by
  simp only [coefficients, List.map_eq_nil_iff, List.filter_eq_nil_iff, decide_eq_true_eq, ne_eq]

theorem coefficients_of_distinct (distinct : Distinct terms) (exponent : Nat) :
    coefficients terms exponent = (lookup terms exponent).toList := by
  induction terms with
  | nil => rfl
  | cons term terms ih =>
      obtain ⟨others, rest⟩ := List.pairwise_cons.mp distinct
      rw [coefficients_cons, lookup_cons]
      split
      · rename_i same
        have none := coefficients_eq_nil_iff.mpr fun other later => (same ▸ others other later).symm
        rw [none]
        rfl
      · exact ih rest

/-- A loop that only acts on the terms of one power runs over their coefficients. -/
theorem foldl_coefficients (step : β → α → β) (terms : List (Term α)) (exponent : Nat) (start : β) :
    terms.foldl
        (fun state term => if term.exponent = exponent then step state term.coeff else state) start =
      (coefficients terms exponent).foldl step start := by
  induction terms generalizing start with
  | nil => rfl
  | cons term terms ih =>
      rw [List.foldl_cons, ih, coefficients_cons]
      split
      · rfl
      · rfl

end LongDivision.Term
