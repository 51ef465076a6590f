import LongDivision.Proofs.Coefficient.Neutral
import LongDivision.Proofs.Dense.Slots
import LongDivision.Proofs.TermSum.Totals

/-! The dense form of a sum, read one power at a time.
-/

namespace LongDivision.TermSum

open Term

variable {α : Type} {sum other : TermSum α} {exponent : Nat}

theorem degree?_eq_none_iff : sum.degree? = none ↔ sum.terms = [] := by
  rw [degree?, List.max?_eq_none_iff, List.map_eq_nil_iff]

theorem degree?_eq_some_iff {degree : Nat} : sum.degree? = some degree ↔
    (∃ term ∈ sum.terms, term.exponent = degree) ∧ ∀ term ∈ sum.terms, term.exponent ≤ degree := by
  rw [degree?, List.max?_eq_some_iff, List.mem_map, List.forall_mem_map]

theorem degree?_perm (permuted : sum.terms.Perm other.terms) : sum.degree? = other.degree? := by
  apply Option.ext
  intro degree
  simp only [degree?_eq_some_iff, permuted.mem_iff]

variable [Zero α] [Add α]

theorem total_of_absent (absent : ∀ term ∈ sum.terms, term.exponent ≠ exponent) :
    sum.total exponent = 0 := by
  rw [total_eq_foldl, coefficients_eq_nil_iff.mpr absent, List.foldl_nil]

theorem toDense_of_degree?_eq_none (none : sum.degree? = none) : sum.toDense = Dense.zero := by
  rw [toDense, none]

theorem toDense_of_degree?_eq_some {degree : Nat} (leading : sum.degree? = some degree) :
    sum.toDense =
      Dense.ofSlots ((List.range (degree + 1)).map fun slot => sum.total (degree - slot)) := by
  rw [toDense, leading]

theorem size_toDense {degree : Nat} (leading : sum.degree? = some degree) :
    sum.toDense.size = degree + 1 := by
  rw [toDense_of_degree?_eq_some leading, ← Dense.length_slots, Dense.slots_ofSlots (by simp),
    List.length_map, List.length_range]

@[simp]
theorem coeff_toDense (sum : TermSum α) (exponent : Nat) :
    sum.toDense.coeff exponent = sum.total exponent := by
  cases leading : sum.degree? with
  | none =>
      have none := degree?_eq_none_iff.mp leading
      rw [toDense_of_degree?_eq_none leading, total_of_absent (by simp [none]),
        Dense.coeff_eq_rowCoeff]
      exact Dense.rowCoeff_replicate_zero 1 exponent
  | some degree =>
      rw [toDense_of_degree?_eq_some leading, Dense.coeff_ofSlots_range sum.total]
      split
      · rfl
      · rename_i above
        symm
        apply total_of_absent
        intro term member same
        have below := (degree?_eq_some_iff.mp leading).2 term member
        omega

/-- The dense form depends on the highest power that occurs and on the totals, and on nothing else. -/
theorem toDense_congr (degrees : sum.degree? = other.degree?)
    (totals : ∀ exponent, sum.total exponent = other.total exponent) :
    sum.toDense = other.toDense := by
  have same : sum.total = other.total := funext totals
  rw [toDense, toDense, degrees, same]

/-- A sum without repeated powers and without zeros has its own coefficients for totals. -/
theorem total_of_distinct [One α] [Mul α] [BEq α] [NeutralUnits α] (distinct : Distinct sum.terms)
    (nonzero : ∀ term ∈ sum.terms, (term.coeff == 0) = false) (exponent : Nat) :
    sum.total exponent = (lookup sum.terms exponent).getD 0 := by
  rw [total_eq_foldl, coefficients_of_distinct distinct]
  cases found : lookup sum.terms exponent with
  | none => rfl
  | some coeff => exact NeutralUnits.zero_add (nonzero _ (mem_of_lookup found))

theorem total_merge [One α] [Mul α] [BEq α] [NeutralUnits α] (left right : TermSum α)
    (exponent : Nat) :
    (merge left right).total exponent =
      ((lookup (totals left right) exponent).filter fun total => !(total == 0)).getD 0 := by
  rw [← lookup_merge]
  refine total_of_distinct (descending_merge left right).distinct ?_ exponent
  intro term member
  simpa using (List.mem_filter.mp member).2

end LongDivision.TermSum
