import LongDivision.Proofs.Dense.Terms
import LongDivision.Proofs.TermMap.Insertion

/-! Maps and rows of slots: a map has the nonzero slots of its dense form for terms, and is what
those terms are added up to.
-/

namespace LongDivision

open Term

variable {α : Type} [Zero α] [BEq α]

namespace TermMap

theorem nonzeroTerms_toDense (zero_beq : ((0 : α) == 0) = true) (map : TermMap α) :
    map.toDense.nonzeroTerms = map.terms.reverse := by
  rw [← terms_toTermSum]
  apply (Dense.descending_rowTerms _).eq_of_lookup map.descending_toTermSum
  intro exponent
  change lookup (Dense.nonzeroTerms _) exponent = _
  rw [Dense.lookup_nonzeroTerms zero_beq, coeff_toDense, lookup_toTermSum]
  cases found : map.get? exponent with
  | none => rw [Option.getD_none, Option.filter_some, zero_beq]; rfl
  | some coeff => rw [Option.getD_some, Option.filter_some, nonzero_of_get? found]; rfl

section Sums

variable [Add α]

/-- Terms of distinct powers all end up in the map. -/
theorem terms_ofTerms {terms : List (Term α)} (descending : Descending terms)
    (nonzero : ∀ term ∈ terms, (term.coeff == 0) = false) :
    (ofTerms terms).terms = terms.reverse := by
  have ascending := List.pairwise_reverse.mpr descending
  have reversed : ∀ term ∈ terms.reverse, (term.coeff == 0) = false := fun term member =>
    nonzero term (List.mem_reverse.mp member)
  have same : ofTerms terms = ⟨terms.reverse, ascending, reversed⟩ :=
    ofTerms_of_perm terms.reverse_perm
  rw [same]

theorem exponent_foldl_insert {bound : Nat} {terms : List (Term α)} {map : TermMap α}
    (within : ∀ term ∈ terms, term.exponent ≤ bound)
    (already : ∀ term ∈ map.terms, term.exponent ≤ bound) :
    ∀ term ∈ (terms.foldl (fun map term => map.insert term.exponent term.coeff) map).terms,
      term.exponent ≤ bound := by
  induction terms generalizing map with
  | nil => exact already
  | cons inserted terms ih =>
      refine ih (fun term later => within term (List.mem_cons_of_mem _ later)) ?_
      intro term member
      rcases exponent_insertTerm member with same | ⟨found, old, same⟩
      · rw [same]
        exact within inserted List.mem_cons_self
      · rw [same]
        exact already found old

end Sums

theorem degree_toDense_le {map : TermMap α} {bound : Nat}
    (within : ∀ term ∈ map.terms, term.exponent ≤ bound) : map.toDense.degree ≤ bound := by
  cases leading : map.degree? with
  | none =>
      rw [toDense, leading]
      exact Nat.zero_le bound
  | some degree =>
      have size := size_toDense leading
      rw [Dense.size_eq_degree_succ] at size
      obtain ⟨last, member, rfl⟩ := exists_mem_of_degree?_eq_some leading
      rw [Nat.succ.inj size]
      exact within last member

end TermMap

end LongDivision
