import LongDivision.Term
import Mathlib.Data.List.Perm.Basic

/-! Lists of terms with distinct powers, read as functions from powers to coefficients.
-/

namespace LongDivision.Term

variable {α : Type} {terms left right : List (Term α)} {term : Term α} {exponent : Nat}

def Distinct (terms : List (Term α)) : Prop :=
  terms.Pairwise fun term other => term.exponent ≠ other.exponent

def Descending (terms : List (Term α)) : Prop :=
  terms.Pairwise fun higher lower => lower.exponent < higher.exponent

/-- The coefficient of the first term of a power. -/
def lookup (terms : List (Term α)) (exponent : Nat) : Option α :=
  (terms.find? (·.exponent == exponent)).map (·.coeff)

theorem lookup_cons (term : Term α) (terms : List (Term α)) (exponent : Nat) :
    lookup (term :: terms) exponent =
      if term.exponent = exponent then some term.coeff else lookup terms exponent := by
  simp only [lookup, List.find?_cons]
  by_cases same : term.exponent = exponent
  · rw [if_pos same, beq_iff_eq.mpr same]
    rfl
  · rw [if_neg same, beq_eq_false_iff_ne.mpr same]

theorem lookup_eq_none_iff :
    lookup terms exponent = none ↔ ∀ term ∈ terms, term.exponent ≠ exponent := by
  simp only [lookup, Option.map_eq_none_iff, List.find?_eq_none, beq_iff_eq, ne_eq]

theorem mem_of_lookup {coeff : α} (found : lookup terms exponent = some coeff) :
    ⟨exponent, coeff⟩ ∈ terms := by
  obtain ⟨term, first, rfl⟩ := Option.map_eq_some_iff.mp found
  have same : term.exponent = exponent := by simpa using List.find?_some first
  subst same
  exact List.mem_of_find?_eq_some first

theorem Descending.distinct (descending : Descending terms) : Distinct terms :=
  descending.imp fun below => (Nat.ne_of_lt below).symm

theorem Distinct.perm (permuted : left.Perm right) (distinct : Distinct left) : Distinct right :=
  (permuted.pairwise_iff fun different => different.symm).mp distinct

theorem Distinct.lookup_of_mem (distinct : Distinct terms) (member : term ∈ terms) :
    lookup terms term.exponent = some term.coeff := by
  induction terms with
  | nil => contradiction
  | cons head rest ih =>
      obtain ⟨others, distinctRest⟩ := List.pairwise_cons.mp distinct
      rw [lookup_cons]
      rcases List.mem_cons.mp member with rfl | later
      · rw [if_pos rfl]
      · rw [if_neg (others term later), ih distinctRest later]

theorem Distinct.lookup_eq_some_iff {coeff : α} (distinct : Distinct terms) :
    lookup terms exponent = some coeff ↔ ⟨exponent, coeff⟩ ∈ terms :=
  ⟨mem_of_lookup, distinct.lookup_of_mem⟩

theorem Distinct.lookup_perm (permuted : left.Perm right) (distinct : Distinct left)
    (exponent : Nat) : lookup left exponent = lookup right exponent := by
  apply Option.ext
  intro coeff
  rw [distinct.lookup_eq_some_iff, (distinct.perm permuted).lookup_eq_some_iff, permuted.mem_iff]

theorem Distinct.lookup_filter (distinct : Distinct terms) (keep : α → Bool) (exponent : Nat) :
    lookup (terms.filter fun term => keep term.coeff) exponent =
      (lookup terms exponent).filter keep := by
  apply Option.ext
  intro coeff
  rw [Distinct.lookup_eq_some_iff (distinct.filter _), List.mem_filter, Option.filter_eq_some_iff,
    distinct.lookup_eq_some_iff]

theorem Descending.eq_of_lookup (leftDescending : Descending left)
    (rightDescending : Descending right)
    (same : ∀ exponent, lookup left exponent = lookup right exponent) : left = right := by
  have members (term : Term α) : term ∈ left ↔ term ∈ right := by
    obtain ⟨exponent, coeff⟩ := term
    rw [← leftDescending.distinct.lookup_eq_some_iff, same,
      rightDescending.distinct.lookup_eq_some_iff]
  have leftNodup : left.Nodup := leftDescending.imp fun below => by
    rintro rfl
    exact Nat.lt_irrefl _ below
  have rightNodup : right.Nodup := rightDescending.imp fun below => by
    rintro rfl
    exact Nat.lt_irrefl _ below
  apply ((List.perm_ext_iff_of_nodup leftNodup rightNodup).mpr members).eq_of_pairwise
    _ leftDescending rightDescending
  intro term other _ _ below above
  exact absurd below (Nat.lt_asymm above)

end LongDivision.Term
