import LongDivision.Proofs.Coefficient.Value
import LongDivision.Proofs.TermMap.Insertion

/-! Coefficients that add up without rounding. A map then holds their plain sum for each power, and
the order of the insertions does not matter.
-/

namespace LongDivision

open Binary64 Term

namespace TermMap

/-- What a map holds for a power whose coefficient is known. -/
def entry {α : Type} [Zero α] [BEq α] (coeff : α) : Option α :=
  if coeff == 0 then none else some coeff

/-- A power whose coefficient is a rational number. -/
inductive Holds : Option Float → ℚ → Prop where
  | absent : Holds none 0
  | present {coeff : Float} {rational : ℚ} (hasValue : HasValue coeff rational)
      (nonzero : rational ≠ 0) : Holds (some coeff) rational

section Holds

variable {found other : Option Float} {coeff : Float} {rational sum : ℚ}

theorem Holds.hasValue (holds : Holds found rational) : HasValue (found.getD 0) rational := by
  cases holds with
  | absent => exact .zero
  | present hasValue nonzero => exact hasValue

theorem holds_entry (hasValue : HasValue coeff rational) : Holds (entry coeff) rational := by
  rw [entry, hasValue.beq_zero]
  split
  · rename_i zero
    rw [of_decide_eq_true zero]
    exact .absent
  · rename_i nonzero
    exact .present hasValue (by simpa using nonzero)

theorem Holds.unique (holds : Holds found rational) (otherHolds : Holds other rational) :
    found = other := by
  cases holds with
  | absent =>
      cases otherHolds with
      | absent => rfl
      | present hasValue nonzero => exact absurd rfl nonzero
  | present hasValue nonzero =>
      cases otherHolds with
      | absent => exact absurd rfl nonzero
      | present otherHasValue _ => rw [hasValue.unique_of_nonzero nonzero otherHasValue]

theorem Holds.addTo (holds : Holds found rational) (exact : HasValue (found.getD 0 + coeff) sum) :
    Holds (addTo found coeff) sum := by
  cases holds with
  | absent => exact holds_entry exact.of_zero_add
  | present hasValue nonzero => exact holds_entry exact

end Holds

/-- Numbers that are added up without rounding: each of them changes the value of what the ones in
front of it come to by its own value. -/
def SumsExactly (coeffs : List Float) : Prop :=
  ∀ first next, first ++ [next] <+: coeffs →
    HasValue ((total first).getD 0 + next) (value ((total first).getD 0) + value next)

theorem total_concat (coeffs : List Float) (coeff : Float) :
    total (coeffs ++ [coeff]) = addTo (total coeffs) coeff :=
  List.foldl_append

theorem SumsExactly.of_prefix {coeffs longer : List Float} (exact : SumsExactly longer)
    (isPrefix : coeffs <+: longer) : SumsExactly coeffs :=
  fun first next earlier => exact first next (earlier.trans isPrefix)

theorem holds_total {coeffs : List Float} (exact : SumsExactly coeffs) :
    Holds (total coeffs) (coeffs.map value).sum := by
  -- From the end, since what is known of a list is known of the ones it starts with.
  induction coeffs using List.reverseRecOn with
  | nil => exact .absent
  | append_singleton coeffs coeff ih =>
      have holds := ih (exact.of_prefix (List.prefix_append _ _))
      have sum := exact coeffs coeff List.prefix_rfl
      rw [holds.hasValue.value_eq] at sum
      rw [total_concat, List.map_append, List.sum_append, List.map_singleton, List.sum_singleton]
      exact holds.addTo sum

section Integers

variable {integers : List Int}

/-- Integers that floating-point numbers can add up: each of them is a floating-point number, and no
sum of the first few exceeds `2 ^ 53`. -/
def AddUpExactly (integers : List Int) : Prop :=
  (∀ integer ∈ integers, HasValue integer integer) ∧
    ∀ first, first <+: integers → first.sum.natAbs ≤ 2 ^ 53

theorem addUpExactly_of_small (small : ∀ first ∈ integers.inits,
    first.sum.natAbs ≤ 2 ^ 53 ∧ ∀ integer ∈ first, integer.natAbs ≤ 2 ^ 53) :
    AddUpExactly integers := by
  constructor
  · intro integer member
    have all := (small integers ((List.mem_inits _ _).mpr List.prefix_rfl)).2
    exact (Represents.intCast (all integer member)).isInteger.hasValue
  · intro first isPrefix
    exact (small first ((List.mem_inits _ _).mpr isPrefix)).1

theorem AddUpExactly.of_prefix {first : List Int} (exact : AddUpExactly integers)
    (isPrefix : first <+: integers) : AddUpExactly first :=
  ⟨fun integer member => exact.1 integer (isPrefix.mem member),
    fun shorter earlier => exact.2 shorter (earlier.trans isPrefix)⟩

theorem sum_map_value (converted : ∀ integer ∈ integers, HasValue integer integer) :
    ((integers.map Int.cast).map value).sum = (integers.sum : ℚ) := by
  induction integers with
  | nil => rfl
  | cons integer integers ih =>
      rw [List.map_cons, List.map_cons, List.sum_cons, List.sum_cons, Int.cast_add,
        (converted integer List.mem_cons_self).value_eq,
        ih fun later member => converted later (List.mem_cons_of_mem _ member)]

theorem AddUpExactly.sumsExactly (exact : AddUpExactly integers) :
    SumsExactly (integers.map Int.cast) := by
  induction integers using List.reverseRecOn with
  | nil => simp [SumsExactly]
  | append_singleton integers integer ih =>
      have earlier := exact.of_prefix (List.prefix_append _ _)
      intro first next isPrefix
      rw [List.map_append, List.map_singleton, List.prefix_concat_iff] at isPrefix
      rcases isPrefix with last | before
      -- The last addition is exact because the ones before it were.
      · obtain ⟨rfl, same⟩ := List.append_inj' last rfl
        cases same
        have holds := holds_total (ih earlier)
        rw [sum_map_value earlier.1] at holds
        have converted := exact.1 integer (by simp)
        have bounded := exact.2 _ List.prefix_rfl
        rw [List.sum_append, List.sum_singleton] at bounded
        rw [holds.hasValue.value_eq, converted.value_eq]
        exact holds.hasValue.add_integers converted bounded
      · exact ih earlier first next before

theorem holds_total_integers (exact : AddUpExactly integers) :
    Holds (total (integers.map Int.cast)) (integers.sum : ℚ) := by
  rw [← sum_map_value exact.1]
  exact holds_total exact.sumsExactly

/-- A sum of two maps is what their integers come to together. -/
theorem total_append_integers {first second : List Int} (exact : AddUpExactly (first ++ second))
    (secondExact : AddUpExactly second) :
    (total ((first ++ second).map Int.cast) : Option Float) =
      entry ((total (first.map Int.cast)).getD 0 + (total (second.map Int.cast)).getD 0) := by
  have left := holds_total_integers (exact.of_prefix (List.prefix_append _ _))
  have right := holds_total_integers secondExact
  have both := holds_total_integers exact
  have bounded := exact.2 _ List.prefix_rfl
  rw [List.sum_append] at both bounded
  rw [Int.cast_add] at both
  exact both.unique (holds_entry (left.hasValue.add_integers right.hasValue bounded))

end Integers

end TermMap

end LongDivision
