import LongDivision.Coefficient.Binary64
import LongDivision.Proofs.Positional.Conversions
import LongDivision.Proofs.Positional.Division

/-! Whatever polynomial is made from rows, maps and sums, none of the accesses on the way is out of
range and no polynomial is left without a slot. The coefficients may be any numbers, infinities and
NaNs included, since no position depends on them.
-/

namespace LongDivision.Positional

open LongDivision.Dense

/-- The ways to make a polynomial. -/
inductive Construction (α : Type) [Zero α] [BEq α] where
  | ofSlots (row : List α)
  | leadingTerm (coeff : α) (size : Nat)
  | ofTermMap (map : TermMap α)
  | ofTermSum (sum : TermSum α)
  | add (left right : Construction α)
  | sub (left right : Construction α)
  | mul (left right : Construction α)
  | scale (poly : Construction α) (factor : α)
  | quotient (dividend divisor : Construction α)
  | remainder (dividend divisor : Construction α)

namespace Construction

variable {α : Type} [Zero α] [One α] [Neg α] [Add α] [Mul α] [Div α] [BEq α]

def value : Construction α → Except DivisionError (Dense α)
  | ofSlots row => .ok (Dense.ofSlots row)
  | leadingTerm coeff size => .ok (Dense.leadingTerm coeff size)
  | ofTermMap map => .ok map.toDense
  | ofTermSum sum => .ok sum.toDense
  | add left right => do
      let leftPoly ← left.value
      let rightPoly ← right.value
      .ok (leftPoly + rightPoly)
  | sub left right => do
      let leftPoly ← left.value
      let rightPoly ← right.value
      .ok (leftPoly - rightPoly)
  | mul left right => do
      let leftPoly ← left.value
      let rightPoly ← right.value
      .ok (leftPoly * rightPoly)
  | scale poly factor => do
      let scaled ← poly.value
      .ok (scaled.scale factor)
  | quotient dividend divisor => do
      let dividendPoly ← dividend.value
      let divisorPoly ← divisor.value
      let division ← dividendPoly.divide divisorPoly
      .ok division.quotient
  | remainder dividend divisor => do
      let dividendPoly ← dividend.value
      let divisorPoly ← divisor.value
      let division ← dividendPoly.divide divisorPoly
      .ok division.remainder

variable [Written α]

def rows : Construction α → Except Stop (List α)
  | ofSlots row => Positional.ofSlots row
  | leadingTerm coeff size => Positional.leadingTerm coeff size
  | ofTermMap map => Positional.ofTermMap map
  | ofTermSum sum => Positional.ofTermSum sum
  | add left right => do
      let leftRow ← left.rows
      let rightRow ← right.rows
      combine 1 leftRow rightRow
  | sub left right => do
      let leftRow ← left.rows
      let rightRow ← right.rows
      combine (-1) leftRow rightRow
  | mul left right => do
      let leftRow ← left.rows
      let rightRow ← right.rows
      Positional.mul leftRow rightRow
  | scale poly factor => do
      let row ← poly.rows
      Positional.scale row factor
  | quotient dividend divisor => do
      let dividendRow ← dividend.rows
      let divisorRow ← divisor.rows
      let outcome ← divide dividendRow divisorRow
      .ok outcome.quotient
  | remainder dividend divisor => do
      let dividendRow ← dividend.rows
      let divisorRow ← divisor.rows
      let outcome ← divide dividendRow divisorRow
      .ok outcome.remainder

theorem bind_rows {left right : Construction α} {operation : List α → List α → Except Stop (List α)}
    {result : Dense α → Dense α → Except DivisionError (Dense α)}
    (leftRows : left.rows = refusable slots left.value)
    (rightRows : right.rows = refusable slots right.value)
    (agree : ∀ leftPoly rightPoly : Dense α,
      operation leftPoly.slots rightPoly.slots = refusable slots (result leftPoly rightPoly)) :
    (do
      let leftRow ← left.rows
      let rightRow ← right.rows
      operation leftRow rightRow) =
    refusable slots (do
      let leftPoly ← left.value
      let rightPoly ← right.value
      result leftPoly rightPoly) := by
  rw [leftRows]
  refine bind_refusable fun leftPoly => ?_
  rw [rightRows]
  exact bind_refusable fun rightPoly => agree leftPoly rightPoly

/-- A construction makes the slots of its value, or it is refused where the value is. -/
theorem rows_eq (zero_beq : ((0 : α) == 0) = true) (construction : Construction α) :
    construction.rows = refusable slots construction.value := by
  induction construction with
  | ofSlots row => exact ofSlots_eq row
  | leadingTerm coeff size => exact leadingTerm_eq coeff size
  | ofTermMap map => exact ofTermMap_eq map
  | ofTermSum sum => exact ofTermSum_eq sum
  | add left right leftRows rightRows => exact bind_rows leftRows rightRows (combine_slots 1)
  | sub left right leftRows rightRows => exact bind_rows leftRows rightRows (combine_slots (-1))
  | mul left right leftRows rightRows => exact bind_rows leftRows rightRows mul_slots
  | scale poly factor polyRows =>
      rw [rows, polyRows]
      exact bind_refusable fun scaled => scale_slots scaled factor
  | quotient dividend divisor dividendRows divisorRows =>
      refine bind_rows dividendRows divisorRows fun dividendPoly divisorPoly => ?_
      rw [divide_slots zero_beq]
      exact bind_refusable fun division => rfl
  | remainder dividend divisor dividendRows divisorRows =>
      refine bind_rows dividendRows divisorRows fun dividendPoly divisorPoly => ?_
      rw [divide_slots zero_beq]
      exact bind_refusable fun division => rfl

theorem exists_value (zero_beq : ((0 : α) == 0) = true) {construction : Construction α}
    {row : List α} (made : construction.rows = .ok row) :
    ∃ poly, construction.value = .ok poly ∧ poly.slots = row := by
  rw [construction.rows_eq zero_beq] at made
  exact exists_of_refusable made

theorem length_of_value (zero_beq : ((0 : α) == 0) = true) {construction : Construction α}
    {poly : Dense α} {size : Nat} (made : construction.value = .ok poly) (length : poly.size = size) :
    construction.rows.map List.length = .ok size := by
  rw [construction.rows_eq zero_beq, made, ← length]
  rfl

end Construction

/-- A row that can be read as a polynomial: each reading gives a value. -/
structure Readable {α : Type} [Zero α] [BEq α] [Written α] (row : List α) : Prop where
  nonempty : 1 ≤ row.length
  degree : degree row = .ok (row.length - 1)
  lead : ∃ slot, lead row = .ok slot
  coeff (exponent : Nat) : ∃ slot, coeff row exponent = .ok slot
  text : ∃ written, text row = .ok written

theorem readable_slots {α : Type} [Zero α] [BEq α] [Written α] (poly : Dense α) :
    Readable poly.slots where
  nonempty := Nat.succ_pos _
  degree := degree_slots poly
  lead := ⟨_, lead_slots poly⟩
  coeff exponent := ⟨_, coeff_slots poly exponent⟩
  text := ⟨_, text_slots poly⟩

/-- Over floating-point numbers, whatever they are, a construction makes a polynomial unless one of
its divisions is refused: no position is out of range, no difference is negative, no loop is left
unfinished and no polynomial on the way is without slots. What is made can be read at every power,
and sums, products and multiples have the sizes of their operands. -/
theorem constructions_in_range :
    (∀ construction : Construction Float,
      (∃ poly, construction.value = .ok poly ∧ construction.rows = .ok poly.slots) ∨
      ∃ reason, construction.value = .error reason ∧
        construction.rows = .error (.refused reason)) ∧
    (∀ (construction : Construction Float) (row : List Float),
      construction.rows = .ok row → Readable row) ∧
    ∀ (left right : Construction Float) (leftRow rightRow : List Float) (factor : Float),
      left.rows = .ok leftRow → right.rows = .ok rightRow →
      (left.add right).rows.map List.length = .ok (max leftRow.length rightRow.length) ∧
      (left.sub right).rows.map List.length = .ok (max leftRow.length rightRow.length) ∧
      (left.mul right).rows.map List.length = .ok (leftRow.length + rightRow.length - 1) ∧
      (left.scale factor).rows.map List.length = .ok leftRow.length := by
  have zero_beq : ((0 : Float) == 0) = true := by decide
  refine ⟨fun construction => ?_, fun construction row made => ?_, ?_⟩
  · rw [construction.rows_eq zero_beq]
    cases construction.value with
    | ok poly => exact .inl ⟨poly, rfl, rfl⟩
    | error reason => exact .inr ⟨reason, rfl, rfl⟩
  · obtain ⟨poly, _, rfl⟩ := Construction.exists_value zero_beq made
    exact readable_slots poly
  · intro left right leftRow rightRow factor leftMade rightMade
    obtain ⟨leftPoly, leftValue, rfl⟩ := Construction.exists_value zero_beq leftMade
    obtain ⟨rightPoly, rightValue, rfl⟩ := Construction.exists_value zero_beq rightMade
    have sum : (left.add right).value = .ok (leftPoly + rightPoly) := by
      rw [Construction.value, leftValue, rightValue]
      rfl
    have difference : (left.sub right).value = .ok (leftPoly - rightPoly) := by
      rw [Construction.value, leftValue, rightValue]
      rfl
    have product : (left.mul right).value = .ok (leftPoly * rightPoly) := by
      rw [Construction.value, leftValue, rightValue]
      rfl
    have multiple : (left.scale factor).value = .ok (leftPoly.scale factor) := by
      rw [Construction.value, leftValue]
      rfl
    exact ⟨Construction.length_of_value zero_beq sum (size_add leftPoly rightPoly),
      Construction.length_of_value zero_beq difference (size_sub leftPoly rightPoly),
      Construction.length_of_value zero_beq product (size_mul leftPoly rightPoly),
      Construction.length_of_value zero_beq multiple (size_scale leftPoly factor)⟩

/-- A polynomial from no slots, and the remainder of a division that meets an infinity. -/
theorem constructions_in_range_of_infinite_slot :
    (Construction.ofSlots ([] : List Float)).rows = .ok [0] ∧
    (Construction.remainder (.ofSlots [(1 : Float), 1 / 0, 49]) (.ofSlots [49, 1])).rows =
      .ok [-1 / 0] ∧
    Readable ([-1 / 0] : List Float) ∧
    (Construction.mul (.ofSlots [])
      (.remainder (.ofSlots [(1 : Float), 1 / 0, 49]) (.ofSlots [49, 1]))).rows.map List.length =
      .ok 1 := by
  have empty : (Construction.ofSlots ([] : List Float)).rows = .ok [0] := by decide
  have infinite : (Construction.remainder (.ofSlots [(1 : Float), 1 / 0, 49])
      (.ofSlots [49, 1])).rows = .ok [-1 / 0] := by decide +kernel
  have sizes := constructions_in_range.2.2 (.ofSlots []) _ [0] [-1 / 0] 1 empty infinite
  exact ⟨empty, infinite, constructions_in_range.2.1 _ _ infinite, sizes.2.2.1⟩

end LongDivision.Positional
