import LongDivision.Event
import LongDivision.Proofs.TermSum.Totals
import Mathlib.Data.Finset.Card

/-! Merged sums, one power at a time: what is kept of a power is the sum of its coefficients in the
order of the terms, started at zero. Nothing is asked of the coefficient arithmetic.
-/

namespace LongDivision.TermSum

open Term

variable {α : Type} [Zero α] [Add α] {left right : TermSum α} {exponent : Nat}

/-- The sum of a power's coefficients, from the head of the first sum to the tail of the second. -/
def foldedTotal (left right : TermSum α) (exponent : Nat) : α :=
  (coefficients (left.terms ++ right.terms) exponent).foldl (· + ·) 0

/-- A power has a running total once one of its terms was added, and that is the sum so far. -/
theorem lookup_totals_eq_foldedTotal (left right : TermSum α) (exponent : Nat) :
    lookup (totals left right) exponent =
      if coefficients (left.terms ++ right.terms) exponent = [] then none
      else some (foldedTotal left right exponent) := by
  have started (coeffs : List α) (value : α) :
      coeffs.foldl (fun found coeff => some (found.getD 0 + coeff)) (some value) =
        some (coeffs.foldl (· + ·) value) := by
    induction coeffs generalizing value with
    | nil => rfl
    | cons coeff coeffs ih => exact ih (value + coeff)
  rw [lookup_totals, ← List.foldl_append, foldedTotal]
  refine (foldl_coefficients (fun found coeff => some (found.getD 0 + coeff)) _ exponent none).trans
    ?_
  cases coefficients (left.terms ++ right.terms) exponent with
  | nil => rfl
  | cons coeff coeffs => exact started coeffs (0 + coeff)

theorem distinctPowers_eq_card (left right : TermSum α) :
    left.distinctPowers right =
      ((left.terms ++ right.terms).map (·.exponent)).toFinset.card := by
  have distinct : ((totals left right).map (·.exponent)).Nodup :=
    List.pairwise_map.mpr (descending_totals left right).distinct
  have powers : ((totals left right).map (·.exponent)).toFinset =
      ((left.terms ++ right.terms).map (·.exponent)).toFinset := by
    ext exponent
    have absent : lookup (totals left right) exponent = none ↔
        coefficients (left.terms ++ right.terms) exponent = [] := by
      rw [lookup_totals_eq_foldedTotal]
      cases coefficients (left.terms ++ right.terms) exponent with
      | nil => simp
      | cons coeff coeffs => simp
    rw [lookup_eq_none_iff, coefficients_eq_nil_iff] at absent
    simpa only [List.mem_toFinset, List.mem_map, ne_eq, not_forall, not_not, exists_prop] using
      not_congr absent
  rw [← powers, List.toFinset_card_of_nodup distinct, List.length_map, distinctPowers]

variable [BEq α]

theorem lookup_merge_eq_foldedTotal (zero_beq : ((0 : α) == 0) = true) (left right : TermSum α)
    (exponent : Nat) :
    lookup (merge left right).terms exponent =
      (some (foldedTotal left right exponent)).filter fun total => !(total == 0) := by
  rw [lookup_merge, lookup_totals_eq_foldedTotal]
  split
  · rename_i none
    rw [foldedTotal, none, List.foldl_nil, Option.filter_some, zero_beq]
    rfl
  · rfl

theorem mem_merge_iff (zero_beq : ((0 : α) == 0) = true) {term : Term α} :
    term ∈ (merge left right).terms ↔
      (term.coeff == 0) = false ∧ term.coeff = foldedTotal left right term.exponent := by
  have member : term ∈ (merge left right).terms ↔
      lookup (merge left right).terms term.exponent = some term.coeff :=
    (descending_merge left right).distinct.lookup_eq_some_iff.symm
  rw [member, lookup_merge_eq_foldedTotal zero_beq, Option.filter_eq_some_iff, Bool.not_eq_true',
    Option.some_inj, and_comm, eq_comm (a := foldedTotal left right term.exponent)]

/-- A merged sum has its terms in descending order, and for each power the sum of that power's
coefficients in their order, unless that is zero. The merging is reported with the number of powers
that occurred and the number of terms that are left. -/
theorem add_eq_folds (zero_beq : ((0 : α) == 0) = true) (left right : TermSum α) :
    Descending (left + right).terms ∧
    (∀ exponent, (∃ term ∈ (left + right).terms, term.exponent = exponent) ↔
      ((coefficients (left.terms ++ right.terms) exponent).foldl (· + ·) 0 == 0) = false) ∧
    (∀ term ∈ (left + right).terms, term.coeff =
      (coefficients (left.terms ++ right.terms) term.exponent).foldl (· + ·) 0) ∧
    Event.ofMerge left right =
      .sumsMerged ((left.terms ++ right.terms).map (·.exponent)).toFinset.card
        (left + right).terms.length := by
  refine ⟨descending_merge left right, fun exponent => ⟨?_, fun nonzero => ?_⟩, ?_, ?_⟩
  · rintro ⟨term, member, rfl⟩
    obtain ⟨nonzero, sum⟩ := (mem_merge_iff zero_beq).mp member
    rwa [sum] at nonzero
  · exact ⟨⟨exponent, foldedTotal left right exponent⟩, (mem_merge_iff zero_beq).mpr ⟨nonzero, rfl⟩,
      rfl⟩
  · intro term member
    exact ((mem_merge_iff zero_beq).mp member).2
  · rw [Event.ofMerge, distinctPowers_eq_card]
    rfl

/-- The terms of the highest power cancel half-way, and the only term of the lowest one is zero. -/
theorem add_eq_folds_of_cancelling :
    ((0 : Float) == 0) = true ∧
    (∃ term ∈ ((⟨[⟨3, 2⟩, ⟨3, -2⟩]⟩ : TermSum Float) + ⟨[⟨1, 0⟩, ⟨3, 7⟩]⟩).terms,
      term.exponent = 3) ∧
    (¬ ∃ term ∈ ((⟨[⟨3, 2⟩, ⟨3, -2⟩]⟩ : TermSum Float) + ⟨[⟨1, 0⟩, ⟨3, 7⟩]⟩).terms,
      term.exponent = 1) ∧
    Event.ofMerge (⟨[⟨3, 2⟩, ⟨3, -2⟩]⟩ : TermSum Float) ⟨[⟨1, 0⟩, ⟨3, 7⟩]⟩ =
      .sumsMerged 2 ((⟨[⟨3, 2⟩, ⟨3, -2⟩]⟩ : TermSum Float) + ⟨[⟨1, 0⟩, ⟨3, 7⟩]⟩).terms.length := by
  have zero_beq : ((0 : Float) == 0) = true := by decide
  obtain ⟨_, held, _, reported⟩ :=
    add_eq_folds zero_beq (⟨[⟨3, 2⟩, ⟨3, -2⟩]⟩ : TermSum Float) ⟨[⟨1, 0⟩, ⟨3, 7⟩]⟩
  refine ⟨zero_beq, (held 3).mpr (by decide), fun kept => ?_, reported⟩
  exact absurd ((held 1).mp kept) (by decide)

end LongDivision.TermSum
