import DeskCalculator.Binary64.Rounding

/-!
The shortest decimal that reads back as a given double.

The decimals with a fixed last place form a grid of multiples of a power of ten.
Fewer significant digits mean a coarser grid, so the shortest decimals that round to
a double lie on the coarsest grid that has any. On a given grid only the two points
around the double can round to it, if any point does.

* `Decimal`: a whole number times a power of ten.
* `roundedDecimal`: what a point of a grid rounds to.
* `gridDigits?`: the point of a grid that stands for a double, if one rounds to it;
  of two the nearer, and of two equally near the larger.
* `Decimal.shortest`: the search from the coarsest grid down.
-/

namespace DeskCalculator

/-- The decimal `digits · 10^exponent`. -/
structure Decimal where
  digits : Nat
  exponent : Int
deriving DecidableEq

/-! ### Grids -/

/-- The grid with index `0` has the step `10 ^ -finestPlace`, finer than any spacing of
doubles. -/
def finestPlace : Nat := 343

/-- The index of a grid whose step exceeds twice every double. -/
def coarsestGrid : Nat := 652

/-- The quanta nearest the point `digits` of a grid, that is the decimal
`digits · 10^(grid - finestPlace)`. -/
def roundedDecimal (digits grid : Nat) : Nat :=
  nearest (digits * tenPow grid * quantaPerUnit) (tenPow finestPlace)

/-- The point of a grid that stands for a magnitude of `n` quanta: the nearer of the two
points around it that round to it, and the upper one if they are equally near. -/
def gridDigits? (n grid : Nat) : Option Nat :=
  let num := n * tenPow finestPlace
  let den := tenPow grid * quantaPerUnit
  let below := num / den
  let downReads := roundedDecimal below grid = n
  let upReads := roundedDecimal (below + 1) grid = n
  if downReads ∧ (upReads → 2 * (num % den) < den) then some below
  else if upReads then some (below + 1)
  else none

/-! ### The search -/

/-- The decimal of the point `digits` of a grid. -/
def Decimal.ofGrid (digits grid : Nat) : Decimal := ⟨digits, (grid : Int) - finestPlace⟩

/-- The decimal of the coarsest grid, not above the given one, that has a point; the finest
has to have one. -/
def Decimal.shortestFrom (point? : Nat → Option Nat) : Nat → Decimal
  | 0 => .ofGrid ((point? 0).getD 0) 0
  | grid + 1 =>
    match point? (grid + 1) with
    | some digits => .ofGrid digits (grid + 1)
    | none => shortestFrom point? grid

/-- The decimal with the fewest significant digits that rounds to `n` quanta, and of those
the nearest. -/
def Decimal.shortest (n : Nat) : Decimal := .shortestFrom (gridDigits? n) coarsestGrid

end DeskCalculator
