import LongDivision.Dense.Division

/-! Rows of slots reached by position, as an array is: every access is within the row and no
difference of lengths is negative, or the computation stops and says why.
-/

namespace LongDivision.Positional

variable {α β : Type}

/-- Why a computation on rows stops. Only a refused division is no fault. -/
inductive Stop where
  | outside (position size : Nat)
  | negative (minuend subtrahend : Nat)
  /-- A polynomial without slots. -/
  | noSlots
  /-- A loop that is still not done after all the turns it was given. -/
  | unfinished
  | refused (reason : DivisionError)
  deriving DecidableEq

theorem ok_bind (value : α) (next : α → Except Stop β) : Except.ok value >>= next = next value :=
  rfl

def difference (minuend subtrahend : Nat) : Except Stop Nat :=
  if subtrahend ≤ minuend then .ok (minuend - subtrahend)
  else .error (.negative minuend subtrahend)

def slotAt (row : List α) (position : Nat) : Except Stop α :=
  if within : position < row.length then .ok row[position]
  else .error (.outside position row.length)

def change (operation : α → α) (position : Nat) (row : List α) : Except Stop (List α) :=
  if position < row.length then .ok (row.modify position operation)
  else .error (.outside position row.length)

def remove (position : Nat) (row : List α) : Except Stop (List α) :=
  if position < row.length then .ok (row.eraseIdx position)
  else .error (.outside position row.length)

/-- Accepts a row as the slots of a polynomial. All operations that make a polynomial end with it. -/
def polynomial (row : List α) : Except Stop (List α) :=
  if row.isEmpty then .error .noSlots else .ok row

/-- Takes the entries of a row into the slots of a buffer, the first entry at the given position
and each later one behind it. -/
def changeEach (operation : α → β → α) :
    (position : Nat) → (row : List β) → (buffer : List α) → Except Stop (List α)
  | _, [], buffer => .ok buffer
  | position, entry :: row, buffer => do
      let changed ← change (operation · entry) position buffer
      changeEach operation (position + 1) row changed

theorem difference_of_le {minuend subtrahend : Nat} (le : subtrahend ≤ minuend) :
    difference minuend subtrahend = .ok (minuend - subtrahend) :=
  if_pos le

theorem slotAt_of_lt {row : List α} {position : Nat} (within : position < row.length) :
    slotAt row position = .ok row[position] :=
  dif_pos within

theorem change_of_lt (operation : α → α) {row : List α} {position : Nat}
    (within : position < row.length) :
    change operation position row = .ok (row.modify position operation) :=
  if_pos within

theorem change_append (operation : α → α) (front : List α) (slot : α) (buffer : List α) :
    change operation front.length (front ++ slot :: buffer) =
      .ok (front ++ operation slot :: buffer) := by
  have within : front.length < (front ++ slot :: buffer).length := by
    rw [List.length_append, List.length_cons]
    omega
  have changed : (front ++ slot :: buffer).modify front.length operation =
      front ++ operation slot :: buffer := by
    clear within
    induction front with
    | nil => rfl
    | cons first front ih =>
        rw [List.length_cons, List.cons_append, List.modify_succ_cons, ih, List.cons_append]
  rw [change_of_lt operation within, changed]

/-- A row that fits behind the front of a buffer changes as many slots as it has entries. -/
theorem changeEach_append (operation : α → β → α) (front : List α) {row : List β} {buffer : List α}
    (fits : row.length ≤ buffer.length) :
    changeEach operation front.length row (front ++ buffer) =
      .ok (front ++ (List.zipWith operation buffer row ++ buffer.drop row.length)) := by
  induction row generalizing front buffer with
  | nil => rw [changeEach, List.zipWith_nil_right, List.nil_append, List.length_nil, List.drop_zero]
  | cons entry row ih =>
      cases buffer with
      | nil => simp at fits
      | cons slot buffer =>
          have moved := ih (front ++ [operation slot entry]) (Nat.le_of_succ_le_succ fits)
          rw [List.length_append, List.length_singleton, List.append_assoc, List.append_assoc]
            at moved
          rw [changeEach, change_append, ok_bind]
          exact moved

/-- A row that ends where the buffer ends changes all slots from its first one on. -/
theorem changeEach_aligned (operation : α → β → α) {row : List β} {buffer : List α}
    (fits : row.length ≤ buffer.length) :
    changeEach operation (buffer.length - row.length) row buffer =
      .ok (buffer.take (buffer.length - row.length) ++
        List.zipWith operation (buffer.drop (buffer.length - row.length)) row) := by
  have front : (buffer.take (buffer.length - row.length)).length = buffer.length - row.length := by
    rw [List.length_take]
    omega
  have back : (buffer.drop (buffer.length - row.length)).length = row.length := by
    rw [List.length_drop]
    omega
  have changed := changeEach_append operation (buffer.take (buffer.length - row.length))
    (Nat.le_of_eq back.symm)
  rw [front, List.take_append_drop, List.drop_of_length_le (Nat.le_of_eq back), List.append_nil]
    at changed
  exact changed

section Refusals

variable {γ δ : Type}

/-- What may be refused, but stops for no other reason. -/
def refusable (written : β → α) (value : Except DivisionError β) : Except Stop α :=
  (value.map written).mapError .refused

theorem bind_refusable {written : β → α} {value : Except DivisionError β} {next : α → Except Stop δ}
    {later : β → Except DivisionError γ} {result : γ → δ}
    (agree : ∀ held, next (written held) = refusable result (later held)) :
    refusable written value >>= next = refusable result (value >>= later) := by
  cases value with
  | error reason => rfl
  | ok held => exact agree held

theorem exists_of_refusable {written : β → α} {value : Except DivisionError β} {result : α}
    (made : refusable written value = .ok result) :
    ∃ held, value = .ok held ∧ written held = result := by
  cases value with
  | error reason => contradiction
  | ok held => exact ⟨held, rfl, Except.ok.inj made⟩

end Refusals

end LongDivision.Positional
