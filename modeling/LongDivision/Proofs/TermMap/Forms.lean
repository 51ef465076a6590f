import LongDivision.Proofs.Dense.Slots
import LongDivision.Proofs.Term.Lookup
import LongDivision.TermMap

/-! The two written forms of a map, read one power at a time.
-/

namespace LongDivision.TermMap

open Term

variable {α : Type}

theorem terms_foldl_prepend (terms : List (Term α)) (sum : TermSum α) :
    (terms.foldl TermSum.prepend sum).terms = terms.reverse ++ sum.terms := by
  induction terms generalizing sum with
  | nil => rfl
  | cons term terms ih =>
      rw [List.foldl_cons, ih, TermSum.prepend, List.reverse_cons, List.append_assoc,
        List.singleton_append]

variable [Zero α] [BEq α] {map : TermMap α} {exponent : Nat} {coeff : α}

theorem nonzero_of_get? (found : map.get? exponent = some coeff) : (coeff == 0) = false :=
  map.nonzero _ (mem_of_lookup found)

theorem distinct_terms (map : TermMap α) : Distinct map.terms :=
  map.ascending.imp Nat.ne_of_lt

theorem terms_toTermSum (map : TermMap α) : map.toTermSum.terms = map.terms.reverse := by
  rw [toTermSum, terms_foldl_prepend, TermSum.empty, List.append_nil]

theorem descending_toTermSum (map : TermMap α) : Descending map.toTermSum.terms := by
  rw [terms_toTermSum]
  exact List.pairwise_reverse.mpr map.ascending

@[simp]
theorem lookup_toTermSum (map : TermMap α) (exponent : Nat) :
    lookup map.toTermSum.terms exponent = map.get? exponent := by
  rw [terms_toTermSum]
  exact (map.distinct_terms.lookup_perm (List.reverse_perm _).symm exponent).symm

theorem ext_terms {left right : TermMap α} (same : left.terms = right.terms) : left = right := by
  obtain ⟨terms, _, _⟩ := left
  obtain ⟨others, _, _⟩ := right
  cases same
  rfl

/-- A map is determined by what it holds for each power. -/
theorem ext_get? {left right : TermMap α}
    (same : ∀ exponent, left.get? exponent = right.get? exponent) : left = right := by
  have sums : left.toTermSum.terms = right.toTermSum.terms := by
    refine left.descending_toTermSum.eq_of_lookup right.descending_toTermSum fun exponent => ?_
    rw [lookup_toTermSum, lookup_toTermSum, same]
  rw [terms_toTermSum, terms_toTermSum] at sums
  exact ext_terms (List.reverse_injective sums)

theorem exponent_le_degree {degree : Nat} (leading : map.degree? = some degree)
    (found : map.get? exponent = some coeff) : exponent ≤ degree := by
  obtain ⟨last, isLast, rfl⟩ := Option.map_eq_some_iff.mp leading
  obtain ⟨earlier, split⟩ := List.getLast?_eq_some_iff.mp isLast
  have member := mem_of_lookup found
  have order := map.ascending
  rw [split] at member order
  rcases List.mem_append.mp member with before | here
  · exact Nat.le_of_lt ((List.pairwise_append.mp order).2.2 _ before last List.mem_cons_self)
  · rcases List.mem_singleton.mp here with rfl
    exact Nat.le_refl _

theorem terms_of_degree?_eq_none (none : map.degree? = none) : map.terms = [] :=
  List.getLast?_eq_none_iff.mp (Option.map_eq_none_iff.mp none)

theorem exists_mem_of_degree?_eq_some {degree : Nat} (leading : map.degree? = some degree) :
    ∃ term ∈ map.terms, term.exponent = degree := by
  obtain ⟨last, isLast, greatest⟩ := Option.map_eq_some_iff.mp leading
  exact ⟨last, List.mem_of_getLast? isLast, greatest⟩

theorem get?_of_degree?_eq_none (none : map.degree? = none) (exponent : Nat) :
    map.get? exponent = Option.none := by
  rw [get?, terms_of_degree?_eq_none none]
  rfl

theorem slots_toDense {degree : Nat} (leading : map.degree? = some degree) :
    map.toDense.slots =
      (List.range (degree + 1)).map fun slot => (map.get? (degree - slot)).getD 0 := by
  rw [toDense, leading]
  exact Dense.slots_ofSlots (by simp)

theorem size_toDense {degree : Nat} (leading : map.degree? = some degree) :
    map.toDense.size = degree + 1 := by
  rw [← Dense.length_slots, slots_toDense leading, List.length_map, List.length_range]

theorem exponent_lt_size (found : map.get? exponent = some coeff) :
    exponent < map.toDense.size := by
  cases leading : map.degree? with
  | none =>
      rw [get?_of_degree?_eq_none leading] at found
      contradiction
  | some degree =>
      rw [size_toDense leading]
      exact Nat.lt_succ_of_le (exponent_le_degree leading found)

theorem get?_of_size_le (above : map.toDense.size ≤ exponent) : map.get? exponent = none := by
  cases found : map.get? exponent with
  | none => rfl
  | some coeff => exact absurd (exponent_lt_size found) (Nat.not_lt.mpr above)

@[simp]
theorem coeff_toDense (map : TermMap α) (exponent : Nat) :
    map.toDense.coeff exponent = (map.get? exponent).getD 0 := by
  cases leading : map.degree? with
  | none =>
      have zero : map.toDense = Dense.zero := by rw [toDense, leading]
      rw [get?_of_degree?_eq_none leading, zero, Dense.coeff_eq_rowCoeff]
      exact Dense.rowCoeff_replicate_zero 1 exponent
  | some degree =>
      have listed : map.toDense = Dense.ofSlots
          ((List.range (degree + 1)).map fun slot => (map.get? (degree - slot)).getD 0) := by
        rw [toDense, leading]
      rw [listed, Dense.coeff_ofSlots_range fun power => (map.get? power).getD 0]
      split
      · rfl
      · rename_i above
        rw [get?_of_size_le (by rw [size_toDense leading]; omega)]
        rfl

theorem toDense_of_isEmpty (empty : map.isEmpty = true) : map.toDense = Dense.zero := by
  have none : map.terms = [] := List.isEmpty_iff.mp empty
  rw [toDense, degree?, none]
  rfl

/-- The leading slot of the dense form holds the term of the highest power, which is not zero. -/
theorem lead_toDense_of_nonempty (nonempty : map.isEmpty = false) :
    (map.toDense.lead == 0) = false := by
  cases leading : map.degree? with
  | none =>
      rw [isEmpty, terms_of_degree?_eq_none leading] at nonempty
      contradiction
  | some degree =>
      obtain ⟨last, member, rfl⟩ := exists_mem_of_degree?_eq_some leading
      have found : map.get? last.exponent = some last.coeff :=
        map.distinct_terms.lookup_of_mem member
      have size := size_toDense leading
      have lead := Dense.coeff_degree map.toDense
      rw [Dense.size_eq_degree_succ] at size
      rw [Nat.succ.inj size, coeff_toDense, found] at lead
      rw [← lead]
      exact nonzero_of_get? found

end LongDivision.TermMap
