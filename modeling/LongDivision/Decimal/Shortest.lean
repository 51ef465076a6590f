/-!
The coarsest decimal inside a window of natural numbers: among all multiples of powers of ten in
the window, one of the highest possible power, and of those the nearest to a marked value. Its
multiplier is the marked value written with the fewest digits that still tell the window apart.
-/

namespace LongDivision

/-- An interval of natural numbers around a marked value. The ends belong to a closed window and
not to an open one. -/
structure Window where
  low : Nat
  value : Nat
  high : Nat
  closed : Bool

namespace Window

def contains (window : Window) (number : Nat) : Bool :=
  if window.closed then window.low ≤ number && number ≤ window.high
  else window.low < number && number < window.high

/-- The multiplier of the grid point nearest to the marked value among the multiples of `unit` in
the window. Only the two neighbours of the value can be nearest, and of two equally near ones the
upper is taken. -/
def nearestMultiple? (window : Window) (unit : Nat) : Option Nat :=
  let below := window.value / unit
  let above := below + 1
  match window.contains (below * unit), window.contains (above * unit) with
  | true, true =>
      if window.value - below * unit < above * unit - window.value then some below else some above
  | true, false => some below
  | false, true => some above
  | false, false => none

/-- The multiplier and the power of ten of the coarsest grid, of power at most `power`, that has a
point in the window. The grid of units is the last resort and holds the value itself. -/
def coarsest (window : Window) : (power : Nat) → Nat × Nat
  | 0 => (window.value, 0)
  | power + 1 =>
      match window.nearestMultiple? (Nat.pow 10 (power + 1)) with
      | some multiplier => (multiplier, power + 1)
      | none => window.coarsest power

/-- A power of ten above the whole window: `28 / 93` exceeds the decimal logarithm of two. -/
def powerAbove (window : Window) : Nat :=
  window.high.log2 * 28 / 93 + 2

end Window

end LongDivision
