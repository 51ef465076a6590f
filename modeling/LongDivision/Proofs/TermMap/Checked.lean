import LongDivision.Proofs.Division.Checked
import LongDivision.Proofs.Expression.Outcome
import LongDivision.Proofs.TermMap.Forms

/-! Maps of checked integers. Terms that are added up without a loss are added up alike with other
coefficients, and so an expression has the same dense form with all of them.
-/

namespace LongDivision

open Term

namespace Term

/-- Terms of one power whose coefficients agree. -/
def Agrees {β : Type} (is : β → Int → Prop) (term : Term β) (checked : Term Checked) : Prop :=
  term.exponent = checked.exponent ∧ LongDivision.Agrees is term.coeff checked.coeff

def Kept (terms : List (Term Checked)) : Prop :=
  ∀ term ∈ terms, term.coeff ≠ .lost

end Term

namespace TermMap

section Backward

variable {term : Term Checked} {terms : List (Term Checked)}

theorem ne_lost_of_beq_zero {coeff : Checked} (zero : (coeff == 0) = true) : coeff ≠ .lost := by
  rw [eq_of_beq zero]
  exact Checked.zero_ne_lost

/-- A loss is not zero, so that it is inserted and is not removed again. -/
theorem kept_of_insertTerm (kept : Kept (insertTerm term terms)) :
    term.coeff ≠ .lost ∧ Kept terms := by
  induction terms with
  | nil =>
      rw [insertTerm] at kept
      split at kept
      · rename_i zero
        exact ⟨ne_lost_of_beq_zero zero, kept⟩
      · exact List.forall_mem_cons.mp kept
  | cons found higher ih =>
      rw [insertTerm] at kept
      split at kept
      · split at kept
        · rename_i zero
          exact ⟨ne_lost_of_beq_zero zero, kept⟩
        · exact List.forall_mem_cons.mp kept
      · split at kept
        · have both : found.coeff + term.coeff ≠ .lost ∧ Kept higher := by
            simp only at kept
            split at kept
            · rename_i zero
              exact ⟨ne_lost_of_beq_zero zero, kept⟩
            · exact List.forall_mem_cons.mp kept
          obtain ⟨foundKept, termKept⟩ := Checked.ne_lost_of_add both.1
          exact ⟨termKept, List.forall_mem_cons.mpr ⟨foundKept, both.2⟩⟩
        · obtain ⟨foundKept, rest⟩ := List.forall_mem_cons.mp kept
          obtain ⟨termKept, higherKept⟩ := ih rest
          exact ⟨termKept, List.forall_mem_cons.mpr ⟨foundKept, higherKept⟩⟩

theorem kept_of_foldl_insert {map : TermMap Checked}
    (kept : Kept (terms.foldl (fun map term => map.insert term.exponent term.coeff) map).terms) :
    Kept map.terms := by
  induction terms generalizing map with
  | nil => exact kept
  | cons term terms ih => exact (kept_of_insertTerm (ih kept)).2

end Backward

section Forward

variable {β : Type} [Zero β] [One β] [Neg β] [Add β] [Mul β] [Div β] [BEq β] [IntCast β]
variable {is : β → Int → Prop} (includes : IncludesIntegers is)
include includes

theorem insertTerm_agrees {term : Term β} {term' : Term Checked} {terms : List (Term β)}
    {terms' : List (Term Checked)} (agrees : term.Agrees is term')
    (allAgree : List.Forall₂ (Term.Agrees is) terms terms') (kept : Kept (insertTerm term' terms')) :
    List.Forall₂ (Term.Agrees is) (insertTerm term terms) (insertTerm term' terms') := by
  have termKept := (kept_of_insertTerm kept).1
  have zero := agrees.2.beq_zero includes termKept
  induction allAgree with
  | nil =>
      rw [insertTerm, insertTerm, zero]
      split
      · exact .nil
      · exact .cons agrees .nil
  | @cons found found' higher higher' first rest ih =>
      simp only [insertTerm, agrees.1, first.1, zero] at kept ⊢
      split
      · split
        · exact .cons first rest
        · exact .cons agrees (.cons first rest)
      · rename_i notBelow
        rw [if_neg notBelow] at kept
        split
        · rename_i same
          rw [if_pos same] at kept
          have sums := first.2.add includes agrees.2
          have sumKept : found'.coeff + term'.coeff ≠ .lost := by
            split at kept
            · rename_i zero
              exact ne_lost_of_beq_zero zero
            · exact (List.forall_mem_cons.mp kept).1
          rw [sums.beq_zero includes sumKept]
          split
          · exact rest
          · exact .cons ⟨rfl, sums⟩ rest
        · rename_i different
          rw [if_neg different] at kept
          exact .cons first (ih (List.forall_mem_cons.mp kept).2)

theorem foldl_insert_agrees {terms : List (Term β)} {terms' : List (Term Checked)}
    (allAgree : List.Forall₂ (Term.Agrees is) terms terms') {map : TermMap β}
    {map' : TermMap Checked} (maps : List.Forall₂ (Term.Agrees is) map.terms map'.terms)
    (kept : Kept (terms'.foldl (fun map term => map.insert term.exponent term.coeff) map').terms) :
    List.Forall₂ (Term.Agrees is)
      (terms.foldl (fun map term => map.insert term.exponent term.coeff) map).terms
      (terms'.foldl (fun map term => map.insert term.exponent term.coeff) map').terms := by
  induction allAgree generalizing map map' with
  | nil => exact maps
  | @cons term term' terms terms' first rest ih =>
      have inserted : Kept (map'.insert term'.exponent term'.coeff).terms :=
        kept_of_foldl_insert kept
      exact ih (insertTerm_agrees includes first maps inserted) kept

/-- An expression without a loss in the end has agreeing terms. -/
theorem parse_agrees {limit : Nat} {text : List Char} {map' : TermMap Checked}
    (accepted : Expression.parse limit text = .ok map') (kept : Kept map'.terms) :
    ∃ map : TermMap β, Expression.parse limit text = .ok map ∧
      List.Forall₂ (Term.Agrees is) map.terms map'.terms := by
  obtain ⟨some, terms, tokens, rfl⟩ := Expression.parse_eq_ok_iff.mp accepted
  refine ⟨_, Expression.parse_eq_ok_iff.mpr ⟨some, terms, tokens, rfl⟩, ?_⟩
  refine foldl_insert_agrees includes ?_ .nil kept
  rw [List.forall₂_map_left_iff, List.forall₂_map_right_iff, List.forall₂_same]
  exact fun term _ => ⟨rfl, .intCast includes term.coeff⟩

end Forward

section Dense

variable {β : Type} {is : β → Int → Prop}

theorem lookup_agrees {zero : β} (zeros : LongDivision.Agrees is zero 0) {terms : List (Term β)}
    {terms' : List (Term Checked)} (allAgree : List.Forall₂ (Term.Agrees is) terms terms')
    (exponent : Nat) :
    LongDivision.Agrees is ((lookup terms exponent).getD zero)
      ((lookup terms' exponent).getD 0) := by
  induction allAgree with
  | nil => exact zeros
  | cons first rest ih =>
      rw [lookup_cons, lookup_cons, first.1]
      split
      · exact first.2
      · exact ih

variable [Zero β] [BEq β] {map : TermMap β} {map' : TermMap Checked}

theorem isEmpty_eq (allAgree : List.Forall₂ (Term.Agrees is) map.terms map'.terms) :
    map.isEmpty = map'.isEmpty := by
  rw [isEmpty, isEmpty, Bool.eq_iff_iff, List.isEmpty_iff_length_eq_zero,
    List.isEmpty_iff_length_eq_zero, allAgree.length_eq]

theorem degree?_eq (allAgree : List.Forall₂ (Term.Agrees is) map.terms map'.terms) :
    map.degree? = map'.degree? := by
  have exponents : map.terms.map (·.exponent) = map'.terms.map (·.exponent) := by
    generalize map.terms = terms at allAgree
    generalize map'.terms = terms' at allAgree
    induction allAgree with
    | nil => rfl
    | cons first rest ih => rw [List.map_cons, List.map_cons, first.1, ih]
  rw [degree?, degree?, ← List.getLast?_map, ← List.getLast?_map, exponents]

theorem toDense_agrees (zeros : LongDivision.Agrees is (0 : β) 0)
    (allAgree : List.Forall₂ (Term.Agrees is) map.terms map'.terms) :
    Dense.Related (LongDivision.Agrees is) map.toDense map'.toDense := by
  rw [toDense, toDense, degree?_eq allAgree]
  cases map'.degree? with
  | none => exact Dense.related_zero zeros
  | some degree =>
      apply Dense.related_ofSlots zeros
      rw [List.forall₂_map_left_iff, List.forall₂_map_right_iff, List.forall₂_same]
      exact fun slot _ => lookup_agrees zeros allAgree (degree - slot)

theorem kept_toDense (kept : Kept map'.terms) : map'.toDense.Kept := by
  rw [Dense.kept_iff]
  intro exponent
  rw [coeff_toDense]
  cases found : map'.get? exponent with
  | none => exact Checked.zero_ne_lost
  | some coeff => exact kept _ (mem_of_lookup found)

end Dense

end TermMap

end LongDivision
