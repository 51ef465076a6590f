import LongDivision.Proofs.Coefficient.Special
import LongDivision.Proofs.TermMap.Insertion
import LongDivision.Proofs.TermSum.Totals

/-! Maps and merged sums of the same terms. A map drops a power as soon as its coefficient is zero and
starts anew with the next one; a merged sum keeps the zero until all terms are added.
-/

namespace LongDivision.TermMap

open Term TermSum

section Arithmetic

variable {α : Type} [Zero α] [Add α] [BEq α]

theorem addTo_eq_filter (found : Option α) (coeff : α) :
    addTo found coeff =
      (some (found.elim coeff (· + coeff))).filter fun total => !(total == 0) := by
  rw [addTo, Option.filter_some]
  cases found.elim coeff (· + coeff) == 0 with
  | true => rfl
  | false => rfl

variable [VanishingZeros α]

/-- A coefficient that is added to a zero starts anew, as if the power were absent. -/
theorem addTo_none_of_zero {zero : α} (isZero : (zero == 0) = true) (coeff : α) :
    addTo none coeff = (some (zero + coeff)).filter fun total => !(total == 0) := by
  rw [addTo_eq_filter, Option.elim_none, Option.filter_some, Option.filter_some]
  cases vanishing : coeff == 0 with
  | true =>
      rw [VanishingZeros.zero_add_zero isZero vanishing]
      rfl
  | false => rw [VanishingZeros.zero_add isZero vanishing, vanishing]

theorem addTo_filter (found : Option α) (coeff : α) :
    addTo (found.filter fun total => !(total == 0)) coeff =
      (some (found.getD 0 + coeff)).filter fun total => !(total == 0) := by
  cases found with
  | none => exact addTo_none_of_zero VanishingZeros.zero_beq_zero coeff
  | some total =>
      cases zero : total == 0 with
      | true =>
          rw [Option.filter_some, zero]
          exact addTo_none_of_zero zero coeff
      | false =>
          rw [Option.filter_some, zero]
          exact addTo_eq_filter (some total) coeff

/-- What a map holds for a power is the running total, unless that is zero. -/
theorem get?_foldl_insert_eq_filter (terms : List (Term α)) {map : TermMap α} {exponent : Nat}
    {found : Option α} (holds : map.get? exponent = found.filter fun total => !(total == 0)) :
    (terms.foldl (fun map term => map.insert term.exponent term.coeff) map).get? exponent =
      (terms.foldl (accumulate exponent) found).filter fun total => !(total == 0) := by
  induction terms generalizing map found with
  | nil => exact holds
  | cons term terms ih =>
      rw [List.foldl_cons, List.foldl_cons]
      apply ih
      rw [get?_insert, accumulate, holds]
      split
      · exact addTo_filter found term.coeff
      · rfl

theorem get?_ofTerms_append (first second : List (Term α)) (exponent : Nat) :
    (ofTerms (first ++ second)).get? exponent = lookup (merge ⟨first⟩ ⟨second⟩).terms exponent := by
  rw [lookup_merge, lookup_totals, ← List.foldl_append]
  exact get?_foldl_insert_eq_filter (first ++ second) rfl

theorem terms_merge_eq_reverse (first second : List (Term α)) :
    (merge ⟨first⟩ ⟨second⟩).terms = (ofTerms (first ++ second)).terms.reverse := by
  rw [← terms_toTermSum]
  apply (descending_merge _ _).eq_of_lookup (descending_toTermSum _)
  intro exponent
  rw [lookup_toTermSum, get?_ofTerms_append]

end Arithmetic

/-- However a list of terms is split in two, the sum of the two parts has the terms of the map that
all of them are inserted into, highest power first. -/
theorem terms_add_eq_ofTerms (first second : List (Term Float)) :
    ((⟨first⟩ : TermSum Float) + ⟨second⟩).terms = (ofTerms (first ++ second)).terms.reverse ∧
      Descending ((⟨first⟩ : TermSum Float) + ⟨second⟩).terms :=
  ⟨terms_merge_eq_reverse first second, descending_merge _ _⟩

end LongDivision.TermMap
