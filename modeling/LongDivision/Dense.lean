/-!
Dense polynomials: one slot for every power of `x` from the leading one down to the constant.

The arithmetic fixes the order of its coefficient operations, because floating-point results depend
on it. Sums start at zero. Leading zero slots are kept: they count in the degree.
-/

namespace LongDivision

/-- A polynomial as a row of slots, highest power first. The row has at least its leading slot. -/
structure Dense (α : Type) where
  lead : α
  lower : List α
  deriving DecidableEq

namespace Dense

variable {α : Type}

def slots (poly : Dense α) : List α :=
  poly.lead :: poly.lower

def size (poly : Dense α) : Nat :=
  poly.lower.length + 1

/-- The power of the leading slot, whether or not that slot is zero. -/
def degree (poly : Dense α) : Nat :=
  poly.lower.length

theorem length_slots (poly : Dense α) : poly.slots.length = poly.size := rfl

theorem size_eq_degree_succ (poly : Dense α) : poly.size = poly.degree + 1 := rfl

section Slots

variable [Zero α]

def zero : Dense α := ⟨0, []⟩

/-- The polynomial with the given slots, highest power first. No slots at all make zero. -/
def ofSlots : List α → Dense α
  | [] => zero
  | lead :: lower => ⟨lead, lower⟩

theorem slots_ofSlots {row : List α} (nonempty : row ≠ []) : (ofSlots row).slots = row := by
  cases row with
  | nil => contradiction
  | cons lead lower => rfl

@[simp]
theorem ofSlots_slots (poly : Dense α) : ofSlots poly.slots = poly := rfl

/-- A single term in the leading one of `size` slots; there is always at least one slot. -/
def leadingTerm (coeff : α) (size : Nat) : Dense α :=
  ⟨coeff, List.replicate (size - 1) 0⟩

/-- The coefficient of a power of `x`, zero above the degree. -/
def coeff (poly : Dense α) (exponent : Nat) : α :=
  if within : exponent ≤ poly.degree then
    have : poly.degree - exponent < poly.slots.length := by
      simp only [slots, degree, List.length_cons]
      omega
    poly.slots[poly.degree - exponent]
  else 0

variable [BEq α]

@[specialize]
def isZero (poly : Dense α) : Bool :=
  poly.slots.all (· == 0)

end Slots

/-- Two polynomials are equal when their slots are, one by one; a longer one is never equal to a
shorter one. -/
instance [BEq α] : BEq (Dense α) where
  beq left right := left.slots == right.slots

section Arithmetic

variable [Zero α] [Add α] [Mul α]

/-- The value at a point, by Horner's rule. -/
@[specialize]
def eval (poly : Dense α) (point : α) : α :=
  poly.slots.foldl (fun value slot => value * point + slot) 0

/-- Every slot times a number. The number of slots is kept, also when that number is zero. -/
@[specialize]
def scale (poly : Dense α) (factor : α) : Dense α :=
  ⟨poly.lead * factor, poly.lower.map (· * factor)⟩

/-- Adds a row to the last slots of a buffer that is at least as long. -/
@[specialize]
def addAligned (buffer row : List α) : List α :=
  let gap := buffer.length - row.length
  buffer.take gap ++ List.zipWith (· + ·) (buffer.drop gap) row

/-- The first polynomial plus `sign` times the second, with equal powers on top of each other. -/
@[specialize]
def combine (sign : α) (left right : Dense α) : Dense α :=
  let buffer := List.replicate (max left.size right.size) 0
  ofSlots (addAligned (addAligned buffer left.slots) (right.slots.map (sign * ·)))

def add [One α] (left right : Dense α) : Dense α :=
  combine 1 left right

def sub [One α] [Neg α] (left right : Dense α) : Dense α :=
  combine (-1) left right

/-- Adds `factor` times a row to the first slots of a buffer. -/
@[specialize]
def addScaled (factor : α) : (buffer row : List α) → List α
  | slot :: buffer, entry :: row => (slot + factor * entry) :: addScaled factor buffer row
  | buffer, _ => buffer

/-- Adds the product of two rows to a buffer, one row of partial products after the other. The
first slot of the buffer is complete once the first partial products are in. -/
@[specialize]
def addProduct : (buffer left right : List α) → List α
  | buffer, [], _ => buffer
  | buffer, factor :: left, right =>
      match addScaled factor buffer right with
      | [] => []
      | slot :: buffer => slot :: addProduct buffer left right

@[specialize]
def mul (left right : Dense α) : Dense α :=
  let buffer := List.replicate (left.size + right.size - 1) 0
  ofSlots (addProduct buffer left.slots right.slots)

end Arithmetic

instance [Zero α] [One α] [Add α] [Mul α] : Add (Dense α) := ⟨add⟩

instance [Zero α] [One α] [Neg α] [Add α] [Mul α] : Sub (Dense α) := ⟨sub⟩

instance [Zero α] [Add α] [Mul α] : Mul (Dense α) := ⟨mul⟩

/-- Drops the leading slot; a constant becomes zero instead, so that a slot remains. -/
def dropLead [Zero α] (poly : Dense α) : Dense α :=
  ofSlots poly.lower

end Dense

end LongDivision
