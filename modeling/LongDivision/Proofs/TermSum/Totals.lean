import LongDivision.Proofs.Term.Coefficients
import LongDivision.TermSum

/-! The running totals of two sums, one power at a time. The order of the additions is that of the
terms, and the coefficient arithmetic may be any.
-/

namespace LongDivision.TermSum

open Term

variable {α : Type} [Zero α] [Add α] {running terms : List (Term α)} {term : Term α}

/-- What a term makes of the running total of one power, if there is one yet. -/
def accumulate (exponent : Nat) (found : Option α) (term : Term α) : Option α :=
  if term.exponent = exponent then some (found.getD 0 + term.coeff) else found

theorem total_eq_foldl (sum : TermSum α) (exponent : Nat) :
    sum.total exponent = (coefficients sum.terms exponent).foldl (· + ·) 0 :=
  foldl_coefficients (· + ·) sum.terms exponent 0

theorem exponent_addToTotals {member : Term α} (added : member ∈ addToTotals term running) :
    member.exponent = term.exponent ∨ ∃ found ∈ running, member.exponent = found.exponent := by
  induction running with
  | nil =>
      rcases List.mem_singleton.mp added with rfl
      exact .inl rfl
  | cons found lower ih =>
      rw [addToTotals] at added
      split at added
      · rcases List.mem_cons.mp added with rfl | old
        · exact .inl rfl
        · exact .inr ⟨member, old, rfl⟩
      · split at added
        · rcases List.mem_cons.mp added with rfl | old
          · exact .inr ⟨found, List.mem_cons_self, rfl⟩
          · exact .inr ⟨member, List.mem_cons_of_mem _ old, rfl⟩
        · rcases List.mem_cons.mp added with rfl | later
          · exact .inr ⟨member, List.mem_cons_self, rfl⟩
          · rcases ih later with same | ⟨other, old, same⟩
            · exact .inl same
            · exact .inr ⟨other, List.mem_cons_of_mem _ old, same⟩

theorem descending_addToTotals (term : Term α) (descending : Descending running) :
    Descending (addToTotals term running) := by
  induction running with
  | nil => exact List.pairwise_singleton _ _
  | cons found lower ih =>
      obtain ⟨below, rest⟩ := List.pairwise_cons.mp descending
      rw [addToTotals]
      split
      · rename_i higher
        refine List.pairwise_cons.mpr ⟨?_, descending⟩
        intro member old
        rcases List.mem_cons.mp old with rfl | later
        · exact higher
        · exact Nat.lt_trans (below member later) higher
      · split
        · exact List.pairwise_cons.mpr ⟨below, rest⟩
        · refine List.pairwise_cons.mpr ⟨?_, ih rest⟩
          intro member added
          rcases exponent_addToTotals added with same | ⟨other, old, same⟩
          · omega
          · rw [same]
            exact below other old

theorem lookup_addToTotals (term : Term α) (descending : Descending running) (exponent : Nat) :
    lookup (addToTotals term running) exponent =
      accumulate exponent (lookup running exponent) term := by
  induction running with
  | nil => rw [addToTotals, lookup_cons]; rfl
  | cons found lower ih =>
      obtain ⟨below, rest⟩ := List.pairwise_cons.mp descending
      rw [addToTotals, accumulate]
      split
      · rename_i higher
        have absent : lookup (found :: lower) term.exponent = none := by
          rw [lookup_eq_none_iff]
          intro member old
          rcases List.mem_cons.mp old with rfl | later
          · exact Nat.ne_of_lt higher
          · exact Nat.ne_of_lt (Nat.lt_trans (below member later) higher)
        rw [lookup_cons]
        by_cases same : term.exponent = exponent
        · rw [if_pos same, if_pos same, ← same, absent]
          rfl
        · rw [if_neg same, if_neg same]
      · split
        · rename_i same
          rw [lookup_cons, lookup_cons, same]
          split <;> rfl
        · rename_i different
          rw [lookup_cons, lookup_cons, ih rest, accumulate]
          split
          · rw [if_neg (by omega)]
          · rfl

theorem foldl_addToTotals (terms : List (Term α)) (descending : Descending running) :
    Descending (terms.foldl (fun running term => addToTotals term running) running) ∧
    ∀ exponent, lookup (terms.foldl (fun running term => addToTotals term running) running)
      exponent = terms.foldl (accumulate exponent) (lookup running exponent) := by
  induction terms generalizing running with
  | nil => exact ⟨descending, fun exponent => rfl⟩
  | cons term terms ih =>
      obtain ⟨order, values⟩ := ih (descending_addToTotals term descending)
      refine ⟨order, ?_⟩
      intro exponent
      rw [List.foldl_cons, List.foldl_cons, values, lookup_addToTotals term descending]

theorem descending_totals (left right : TermSum α) : Descending (totals left right) :=
  (foldl_addToTotals _ List.Pairwise.nil).1

theorem lookup_totals (left right : TermSum α) (exponent : Nat) :
    lookup (totals left right) exponent =
      right.terms.foldl (accumulate exponent) (left.terms.foldl (accumulate exponent) none) := by
  rw [totals, (foldl_addToTotals _ List.Pairwise.nil).2, List.foldl_append]
  rfl

theorem foldl_accumulate_of_distinct (distinct : Distinct terms) (exponent : Nat)
    (found : Option α) :
    terms.foldl (accumulate exponent) found =
      match lookup terms exponent with
      | none => found
      | some coeff => some (found.getD 0 + coeff) := by
  induction terms generalizing found with
  | nil => rfl
  | cons term terms ih =>
      obtain ⟨others, rest⟩ := List.pairwise_cons.mp distinct
      rw [List.foldl_cons, ih rest, lookup_cons, accumulate]
      split
      · rename_i absent
        split
        · rfl
        · rw [absent]
      · rename_i coeff present
        split
        · rename_i same
          exact absurd same (others _ (mem_of_lookup present))
        · rw [present]

variable [BEq α]

theorem descending_merge (left right : TermSum α) : Descending (merge left right).terms :=
  (descending_totals left right).filter _

theorem lookup_merge (left right : TermSum α) (exponent : Nat) :
    lookup (merge left right).terms exponent =
      (lookup (totals left right) exponent).filter fun total => !(total == 0) :=
  (descending_totals left right).distinct.lookup_filter (fun total => !(total == 0)) exponent

end LongDivision.TermSum
