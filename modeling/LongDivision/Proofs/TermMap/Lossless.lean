import LongDivision.Proofs.TermMap.Rows
import LongDivision.Proofs.TermSum.Forms

/-! Both written forms of a map keep all of it: their terms, inserted in any order, give the map back,
and the two of them have one dense form.
-/

namespace LongDivision.TermMap

open Term

section DenseForm

variable {α : Type} [Zero α] [BEq α]

theorem mem_toTermSum (map : TermMap α) (term : Term α) :
    term ∈ map.toTermSum.terms ↔ term ∈ map.terms := by
  rw [terms_toTermSum, List.mem_reverse]

theorem degree?_toTermSum (map : TermMap α) : map.toTermSum.degree? = map.degree? := by
  cases leading : map.degree? with
  | none =>
      rw [TermSum.degree?_eq_none_iff, terms_toTermSum, terms_of_degree?_eq_none leading,
        List.reverse_nil]
  | some degree =>
      simp only [TermSum.degree?_eq_some_iff, mem_toTermSum]
      refine ⟨exists_mem_of_degree?_eq_some leading, fun term member => ?_⟩
      exact exponent_le_degree leading (map.distinct_terms.lookup_of_mem member)

variable [One α] [Add α] [Mul α] [NeutralUnits α]

theorem total_toTermSum (map : TermMap α) (exponent : Nat) :
    map.toTermSum.total exponent = (map.get? exponent).getD 0 := by
  rw [TermSum.total_of_distinct map.descending_toTermSum.distinct, lookup_toTermSum]
  intro term member
  exact map.nonzero term ((mem_toTermSum map term).mp member)

/-- One form assigns the slots that the other one sums up from zero. -/
theorem toDense_toTermSum (map : TermMap α) : map.toTermSum.toDense = map.toDense := by
  have degrees := degree?_toTermSum map
  cases leading : map.degree? with
  | none =>
      rw [leading] at degrees
      rw [TermSum.toDense_of_degree?_eq_none degrees, toDense, leading]
  | some degree =>
      rw [leading] at degrees
      simp only [TermSum.toDense_of_degree?_eq_some degrees, total_toTermSum, toDense, leading]

end DenseForm

/-- Nothing of a map of floating-point numbers is lost in its dense form or in its sum of terms: the
nonzero slots of the one and the terms of the other give the map back, in whatever order they are
inserted. The sum has its terms in descending order, and the same dense form as the map. -/
theorem conversions_lossless (map : TermMap Float) :
    (∀ terms, map.toDense.nonzeroTerms.Perm terms → ofTerms terms = map) ∧
    (∀ terms, map.toTermSum.terms.Perm terms → ofTerms terms = map) ∧
    Descending map.toTermSum.terms ∧
    map.toTermSum.toDense = map.toDense := by
  have reversed := map.terms.reverse_perm
  refine ⟨fun terms permuted => ?_, fun terms permuted => ?_, descending_toTermSum map,
    toDense_toTermSum map⟩
  · rw [nonzeroTerms_toDense NeutralUnits.zero_beq_zero] at permuted
    exact ofTerms_of_perm (reversed.symm.trans permuted)
  · rw [terms_toTermSum] at permuted
    exact ofTerms_of_perm (reversed.symm.trans permuted)

/-- Some powers are missing, and one coefficient is no number. -/
def gapped : TermMap Float :=
  ofTerms [⟨4, 0 / 0⟩, ⟨1, -3⟩]

theorem conversions_lossless_of_gaps :
    gapped.toDense.nonzeroTerms.Perm [⟨1, -3⟩, ⟨4, 0 / 0⟩] ∧
    gapped.toTermSum.terms.Perm [⟨4, 0 / 0⟩, ⟨1, -3⟩] ∧
    ofTerms [⟨1, -3⟩, ⟨4, 0 / 0⟩] = gapped ∧ ofTerms [⟨4, 0 / 0⟩, ⟨1, -3⟩] = gapped ∧
    gapped.toTermSum.toDense = ⟨0 / 0, [0, 0, -3, 0]⟩ := by
  obtain ⟨ofSlots, ofSum, _, same⟩ := conversions_lossless gapped
  have slots : gapped.toDense.nonzeroTerms.Perm [⟨1, -3⟩, ⟨4, 0 / 0⟩] := by decide
  have terms : gapped.toTermSum.terms.Perm [⟨4, 0 / 0⟩, ⟨1, -3⟩] := by decide
  exact ⟨slots, terms, ofSlots _ slots, ofSum _ terms, same⟩

end LongDivision.TermMap
