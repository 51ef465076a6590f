import LongDivision.Proofs.Expression.Outcome

/-! Expressions under two limits: the higher one accepts what the lower one accepts and finds the
same faults, but for powers that only the lower one refuses.
-/

namespace LongDivision.Expression

variable {lower higher : Nat} {token text : List Char} {reason : ExpressionError} {term : ReadTerm}

theorem Accepts.raise (raised : lower ≤ higher) (accepted : Accepts lower token term) :
    Accepts higher token term :=
  ⟨accepted.text, accepted.form, accepted.nonzero, accepted.within.trans raised⟩

/-- A fault other than the power is one under every limit. -/
theorem Refuses.at_every_limit (refused : Refuses lower token reason)
    (notDegree : ∀ degree bound, reason ≠ .degreeTooLarge degree bound) (higher : Nat) :
    Refuses higher token reason := by
  cases refused with
  | point point => exact .point point
  | noForm noPoint noForm => exact .noForm noPoint noForm
  | zero noPoint form => exact .zero noPoint form
  | above => exact absurd rfl (notDegree _ _)

theorem Refuses.limit_lt_degree {degree bound : Nat}
    (refused : Refuses lower token (.degreeTooLarge degree bound)) :
    bound = lower ∧ lower < degree := by
  cases refused with
  | above _ _ _ above => exact ⟨rfl, above⟩

/-- A power is refused by all limits below it. -/
theorem Refuses.below_degree {degree bound : Nat}
    (refused : Refuses lower token (.degreeTooLarge degree bound)) (below : higher < degree) :
    Refuses higher token (.degreeTooLarge degree higher) := by
  cases refused with
  | above noPoint form nonzero _ => exact .above noPoint form nonzero below

section Parse

variable {α : Type} [Zero α] [BEq α] [Add α] [IntCast α]

theorem parse_raise (raised : lower ≤ higher) {map : TermMap α}
    (parsed : parse lower text = .ok map) : parse higher text = .ok map := by
  obtain ⟨some, terms, accepted, rfl⟩ := parse_eq_ok_iff.mp parsed
  exact parse_eq_ok_iff.mpr ⟨some, terms, accepted.imp fun _ _ => Accepts.raise raised, rfl⟩

/-- The token that decides still does, if what it is refused for stays or becomes a fault. -/
theorem parse_refused_raise (raised : lower ≤ higher) {other : ExpressionError}
    (noTerms : reason = .noTerms → other = .noTerms)
    (refused : ∀ {token}, Refuses lower token reason → Refuses higher token other)
    (parsed : (parse lower text : Except ExpressionError (TermMap α)) = .error reason) :
    (parse higher text : Except ExpressionError (TermMap α)) = .error other := by
  apply parse_eq_error_iff.mpr
  rcases parse_eq_error_iff.mp parsed with
    ⟨none, noTermsFound⟩ | ⟨before, token, after, split, accepted, decides⟩
  · exact .inl ⟨none, noTerms noTermsFound⟩
  · refine .inr ⟨before, token, after, split, ?_, refused decides⟩
    intro earlier member
    obtain ⟨term, accepts⟩ := accepted earlier member
    exact ⟨term, accepts.raise raised⟩

theorem limit_lt_degree_of_parse {degree bound : Nat}
    (parsed : (parse lower text : Except ExpressionError (TermMap α)) =
      .error (.degreeTooLarge degree bound)) :
    bound = lower ∧ lower < degree := by
  rcases parse_eq_error_iff.mp parsed with ⟨_, other⟩ | ⟨_, _, _, _, _, decides⟩
  · contradiction
  · exact decides.limit_lt_degree

theorem parse_degree_raise (raised : lower ≤ higher) {degree bound : Nat} (below : higher < degree)
    (parsed : (parse lower text : Except ExpressionError (TermMap α)) =
      .error (.degreeTooLarge degree bound)) :
    (parse higher text : Except ExpressionError (TermMap α)) =
      .error (.degreeTooLarge degree higher) :=
  parse_refused_raise raised (by simp) (fun decides => decides.below_degree below) parsed

end Parse

end LongDivision.Expression
