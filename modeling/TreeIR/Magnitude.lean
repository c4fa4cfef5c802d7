/-
# TreeIR.Magnitude -- the shortest decimal of a binary magnitude

A positive magnitude `mantissa * 2 ^ exponent` of a floating-point format stands for
every real that rounds to it.  Measured in quarters of `2 ^ exponent` that interval
runs from `low` to `high`: half a unit to either side, or a quarter below where the
neighbour below has a finer unit (`fineBelow`).  Ties go to even mantissas, so the
ends belong to the interval exactly when `mantissa` is even.

`shortest` looks through the grids of decimals, one digit finer each time, and takes
the first grid with a point in the interval.  Only the two points next to the
magnitude itself matter: if any point of a grid is inside, one of those is.  Of two
inside the nearer wins, and at equal distance the larger.

All comparisons are between natural numbers: `decimalScale` and `binaryScale` bring a
multiple of a power of ten and a multiple of a quarter unit to one denominator.
-/
import TreeIR.Decimal

namespace TreeIR

set_option autoImplicit false

-- Powers of naturals are the core library's, whatever else is in scope.
attribute [local instance (2000)] instPowNat

/-- The number `mantissa * 2 ^ exponent`; `fineBelow` if the next smaller number of
the format is only half a unit away. -/
structure Magnitude where
  mantissa : Nat
  exponent : Int
  fineBelow : Bool
  deriving DecidableEq, Repr

namespace Magnitude

/-! ## The rounding interval -/

/-- The magnitude in quarters of its unit. -/
def middle (x : Magnitude) : Nat := 4 * x.mantissa

def low (x : Magnitude) : Nat := x.middle - if x.fineBelow then 1 else 2

def high (x : Magnitude) : Nat := x.middle + 2

/-- Whether the ends of the interval still round to the magnitude. -/
def closed (x : Magnitude) : Bool := x.mantissa % 2 == 0

/-! ## One denominator for both number systems -/

/-- What `10 ^ step` counts for. -/
def decimalScale (x : Magnitude) (step : Int) : Nat :=
  10 ^ step.toNat * 2 ^ (2 - x.exponent).toNat

/-- What a quarter of `2 ^ exponent` counts for. -/
def binaryScale (x : Magnitude) (step : Int) : Nat :=
  2 ^ (x.exponent - 2).toNat * 10 ^ (-step).toNat

/-- Whether `count * 10 ^ step` lies in the rounding interval. -/
def holds (x : Magnitude) (step : Int) (count : Nat) : Bool :=
  let point := count * x.decimalScale step
  let unit := x.binaryScale step
  if x.closed then x.low * unit ≤ point && point ≤ x.high * unit
  else x.low * unit < point && point < x.high * unit

/-! ## Search -/

/-- The point of the grid `10 ^ step` that stands for the magnitude, if one does. -/
def onGrid? (x : Magnitude) (step : Int) : Option Nat :=
  let middle := x.middle * x.binaryScale step
  let unit := x.decimalScale step
  let below := middle / unit
  match x.holds step below, x.holds step (below + 1) with
  | true, true => some (if (2 * below + 1) * unit ≤ 2 * middle then below + 1 else below)
  | true, false => some below
  | false, true => some (below + 1)
  | false, false => none

/-- How many digits `n` has. -/
def digitCount (n : Nat) : Nat := (Nat.toDigits 10 n).length

/-- The least `k` with the magnitude below `10 ^ k`. -/
def order (x : Magnitude) : Int :=
  let divisor := 2 ^ (-x.exponent).toNat
  let shift := digitCount divisor
  (digitCount (x.mantissa * 2 ^ x.exponent.toNat * 10 ^ shift / divisor) : Int) - shift

/-- The magnitude itself, which is always a decimal since 2 divides 10. -/
def exact (x : Magnitude) : Decimal :=
  Decimal.trim (x.mantissa * 2 ^ x.exponent.toNat * 5 ^ (-x.exponent).toNat) (-x.exponent).toNat

/-- More digits than this no format here needs. -/
def maxDigits : Nat := 17

/-- The decimal with the fewest digits that rounds to the magnitude. -/
def shortest (x : Magnitude) : Decimal :=
  let finest := (List.range maxDigits).findSome? fun (extra : Nat) =>
    let step := x.order - 1 - (extra : Int)
    (x.onGrid? step).map fun count => Decimal.multiple count step
  finest.getD x.exact

/-- Whatever the search returns lies in the interval. -/
theorem holds_of_onGrid? {x : Magnitude} {step : Int} {count : Nat}
    (h : x.onGrid? step = some count) : x.holds step count = true := by
  unfold onGrid? at h
  grind

end Magnitude

end TreeIR
