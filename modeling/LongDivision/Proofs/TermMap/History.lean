import LongDivision.Proofs.Coefficient.Special
import LongDivision.Proofs.TermMap.Exact

/-! Maps after any run of insertions: which powers they hold, what they hold for each of them, and how
their terms, their size, their degree and their dense form fit together.
-/

namespace LongDivision.TermMap

open Binary64 Term

section Views

variable {α : Type} [Zero α] [BEq α] {map : TermMap α}

/-- All views of a map show the same coefficients, and no zero among them. -/
structure Coherent (map : TermMap α) : Prop where
  ascending : map.terms.Pairwise (·.exponent < ·.exponent)
  listed (exponent : Nat) (coeff : α) :
    ⟨exponent, coeff⟩ ∈ map.terms ↔ map.get? exponent = some coeff
  nonzero (exponent : Nat) (coeff : α) : map.get? exponent = some coeff → (coeff == 0) = false
  counted : ∃ exponents : Finset Nat, exponents.card = map.size ∧
    ∀ exponent, exponent ∈ exponents ↔ (map.get? exponent).isSome
  noDegree : map.degree? = none ↔ map.isEmpty = true
  greatest (degree : Nat) : map.degree? = some degree ↔
    (map.get? degree).isSome ∧ ∀ exponent, (map.get? exponent).isSome → exponent ≤ degree
  led (degree : Nat) : map.degree? = some degree →
    map.toDense.size = degree + 1 ∧ (map.toDense.lead == 0) = false
  allZero : map.toDense.isZero = true ↔ map.isEmpty = true

theorem degree?_eq_none_iff : map.degree? = none ↔ map.isEmpty = true := by
  rw [degree?, Option.map_eq_none_iff, List.getLast?_eq_none_iff, isEmpty, List.isEmpty_iff]

theorem isSome_get?_degree {degree : Nat} (leading : map.degree? = some degree) :
    (map.get? degree).isSome := by
  obtain ⟨last, member, rfl⟩ := exists_mem_of_degree?_eq_some leading
  exact Option.isSome_of_eq_some (map.distinct_terms.lookup_of_mem member)

theorem degree?_eq_some_iff {degree : Nat} : map.degree? = some degree ↔
    (map.get? degree).isSome ∧ ∀ exponent, (map.get? exponent).isSome → exponent ≤ degree := by
  constructor
  · intro leading
    refine ⟨isSome_get?_degree leading, fun exponent present => ?_⟩
    obtain ⟨coeff, found⟩ := Option.isSome_iff_exists.mp present
    exact exponent_le_degree leading found
  · intro ⟨present, greatest⟩
    cases leading : map.degree? with
    | none =>
        rw [get?_of_degree?_eq_none leading] at present
        contradiction
    | some other =>
        obtain ⟨coeff, found⟩ := Option.isSome_iff_exists.mp present
        have below := greatest other (isSome_get?_degree leading)
        have above := exponent_le_degree leading found
        rw [Nat.le_antisymm below above]

theorem exists_exponents (map : TermMap α) : ∃ exponents : Finset Nat,
    exponents.card = map.size ∧ ∀ exponent, exponent ∈ exponents ↔ (map.get? exponent).isSome := by
  have distinct : (map.terms.map (·.exponent)).Nodup := List.pairwise_map.mpr map.distinct_terms
  refine ⟨(map.terms.map (·.exponent)).toFinset, ?_, fun exponent => ?_⟩
  · rw [List.toFinset_card_of_nodup distinct, List.length_map, size]
  · rw [List.mem_toFinset, List.mem_map, ← Option.ne_none_iff_isSome]
    change _ ↔ lookup map.terms exponent ≠ none
    rw [ne_eq, lookup_eq_none_iff]
    simp only [ne_eq, not_forall, not_not, exists_prop]

theorem isZero_toDense_iff (zero_beq : ((0 : α) == 0) = true) :
    map.toDense.isZero = true ↔ map.isEmpty = true := by
  constructor
  · intro zeros
    by_contra nonempty
    have lead := lead_toDense_of_nonempty (Bool.eq_false_iff.mpr nonempty)
    rw [List.all_eq_true.mp zeros _ List.mem_cons_self] at lead
    contradiction
  · intro empty
    rw [toDense_of_isEmpty empty]
    exact Dense.isZero_zero zero_beq

theorem coherent (zero_beq : ((0 : α) == 0) = true) (map : TermMap α) : Coherent map where
  ascending := map.ascending
  listed _ _ := map.distinct_terms.lookup_eq_some_iff.symm
  nonzero _ _ found := nonzero_of_get? found
  counted := exists_exponents map
  noDegree := degree?_eq_none_iff
  greatest _ := degree?_eq_some_iff
  led degree leading := by
    refine ⟨size_toDense leading, lead_toDense_of_nonempty ?_⟩
    rw [Bool.eq_false_iff, ne_eq, ← degree?_eq_none_iff, leading]
    exact Option.some_ne_none degree
  allZero := isZero_toDense_iff zero_beq

end Views

section NotANumber

theorem isNaN_addTo {found : Option Float} (isNaN : found.any Float.isNaN = true) (coeff : Float) :
    (addTo found coeff).any Float.isNaN = true := by
  cases found with
  | none => contradiction
  | some value =>
      have sum := isNaN_add isNaN coeff
      rw [addTo, Option.elim_some, if_neg (Bool.eq_false_iff.mp (beq_zero_of_isNaN sum))]
      exact sum

theorem isNaN_foldl_addTo {found : Option Float} (isNaN : found.any Float.isNaN = true)
    (coeffs : List Float) : (coeffs.foldl addTo found).any Float.isNaN = true := by
  induction coeffs generalizing found with
  | nil => exact isNaN
  | cons coeff coeffs ih => exact ih (isNaN_addTo isNaN coeff)

theorem isNaN_get?_append {terms : List (Term Float)} {exponent : Nat}
    (isNaN : ((ofTerms terms).get? exponent).any Float.isNaN = true) (later : List (Term Float)) :
    ((ofTerms (terms ++ later)).get? exponent).any Float.isNaN = true := by
  rw [ofTerms, List.foldl_append, get?_foldl_insert]
  exact isNaN_foldl_addTo isNaN _

end NotANumber

section Exact

variable {terms others : List (Term Float)}

theorem holds_get?_ofTerms {exponent : Nat} (exact : SumsExactly (coefficients terms exponent)) :
    Holds ((ofTerms terms).get? exponent) ((coefficients terms exponent).map value).sum := by
  rw [get?_ofTerms]
  exact holds_total exact

theorem ofTerms_eq_of_perm (permuted : terms.Perm others)
    (exact : ∀ exponent, SumsExactly (coefficients terms exponent))
    (otherExact : ∀ exponent, SumsExactly (coefficients others exponent)) :
    ofTerms terms = ofTerms others := by
  refine ext_get? fun exponent => ?_
  have holds := holds_get?_ofTerms (exact exponent)
  rw [((coefficients_perm permuted exponent).map value).sum_eq] at holds
  exact holds.unique (holds_get?_ofTerms (otherExact exponent))

end Exact

/-- After any run of insertions of floating-point numbers a map is coherent, it holds for each power
what the coefficients of that power come to in their order, and what is no number stays there. If
nothing is rounded, that is their sum unless it is zero, in whatever order they are inserted. -/
theorem ofTerms_history (terms : List (Term Float)) :
    (ofTerms terms).Coherent ∧
    (∀ exponent, (ofTerms terms).get? exponent = total (coefficients terms exponent)) ∧
    (∀ exponent, ((ofTerms terms).get? exponent).any Float.isNaN = true →
      ∀ later, ((ofTerms (terms ++ later)).get? exponent).any Float.isNaN = true) ∧
    ((∀ exponent, SumsExactly (coefficients terms exponent)) →
      (∀ exponent,
        Holds ((ofTerms terms).get? exponent) ((coefficients terms exponent).map value).sum) ∧
      ∀ others, terms.Perm others → (∀ exponent, SumsExactly (coefficients others exponent)) →
        ofTerms terms = ofTerms others) := by
  refine ⟨coherent (by decide) _, get?_ofTerms terms, fun _ => isNaN_get?_append,
    fun exact => ⟨fun exponent => ?_, fun others permuted => ?_⟩⟩
  · exact holds_get?_ofTerms (exact exponent)
  · exact ofTerms_eq_of_perm permuted exact

/-- One power adds up, one cancels and is added to again, and one has only a zero. -/
def cancelling : List (Term Float) :=
  [⟨1, (2 : Int)⟩, ⟨2, (4 : Int)⟩, ⟨1, (3 : Int)⟩, ⟨2, (-4 : Int)⟩, ⟨2, (7 : Int)⟩, ⟨0, (0 : Int)⟩]

theorem sumsExactly_cancelling (exponent : Nat) :
    SumsExactly (coefficients cancelling exponent) ∧
      SumsExactly (coefficients cancelling.reverse exponent) := by
  have exact (integers : List Int) (small : ∀ first ∈ integers.inits,
      first.sum.natAbs ≤ 2 ^ 53 ∧ ∀ integer ∈ first, integer.natAbs ≤ 2 ^ 53) :
      SumsExactly (integers.map Int.cast) := (addUpExactly_of_small small).sumsExactly
  match exponent with
  | 0 => exact ⟨exact [0] (by decide), exact [0] (by decide)⟩
  | 1 => exact ⟨exact [2, 3] (by decide), exact [3, 2] (by decide)⟩
  | 2 => exact ⟨exact [4, -4, 7] (by decide), exact [7, -4, 4] (by decide)⟩
  | exponent + 3 => exact ⟨exact [] (by decide), exact [] (by decide)⟩

theorem ofTerms_history_of_cancelling :
    (∀ exponent, SumsExactly (coefficients cancelling exponent)) ∧
    (∀ exponent, SumsExactly (coefficients cancelling.reverse exponent)) ∧
    Holds ((ofTerms cancelling).get? 2) ((coefficients cancelling 2).map value).sum ∧
    ofTerms cancelling = ofTerms cancelling.reverse := by
  have exact := fun exponent => (sumsExactly_cancelling exponent).1
  have reversedExact := fun exponent => (sumsExactly_cancelling exponent).2
  obtain ⟨holds, sameOrder⟩ := (ofTerms_history cancelling).2.2.2 exact
  exact ⟨exact, reversedExact, holds 2, sameOrder _ (List.reverse_perm _).symm reversedExact⟩

end LongDivision.TermMap
