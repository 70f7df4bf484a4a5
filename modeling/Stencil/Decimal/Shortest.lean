import Stencil.Decimal.Double

/-!
# Shortest digits

The fewest decimal digits that read back as a given double.  The reals that
round to the double form an interval around it; of the grids with one, two, …
seventeen digits the first is taken on which a neighbour of the value lies in
that interval, and of two such neighbours the nearer.
-/

namespace Stencil

-- powers of numbers are those of the core library
attribute [local instance (2000)] instPowNat

/-- A decimal magnitude `digits * 10 ^ exponent`. -/
structure Decimal where
  digits : Nat
  exponent : Int
  deriving DecidableEq, Repr, Inhabited

namespace Double

/-- The exponent of the leading decimal digit of `num / den`, for values that a double can have. -/
def leadingExponent (num den : Nat) : Int :=
  (digitCount (num * 10 ^ (400 : Nat) / den) : Int) - 401

/-- The decimal without zeros at the end of its digits. -/
def dropZeros : Nat → Decimal → Decimal
  | 0, d => d
  | fuel + 1, d =>
      if d.digits ≠ 0 ∧ d.digits % 10 = 0 then dropZeros fuel ⟨d.digits / 10, d.exponent + 1⟩
      else d

/-- The bounds and the value of a rounding interval, in quarters of the last place. -/
structure Interval where
  low : Nat
  value : Nat
  high : Nat
  closed : Bool

/-- The interval of reals that round to a finite double. -/
def interval (d : Double) : Interval :=
  let m := d.mantissa
  let edge := d.magnitudeBits / 2 ^ (52 : Nat) > 1 && m == 2 ^ (52 : Nat)
  ⟨4 * m - (if edge then 1 else 2), 4 * m, 4 * m + 2, m % 2 == 0⟩

/-- Which way a value half way between two decimals of the grid goes. -/
inductive Tie where
  | even
  | up
  deriving DecidableEq, Repr

/-- The decimal of the grid `10 ^ place` that stands for the value, if one lies in the interval.
The value is `i.value * num / den`. -/
def onGrid (i : Interval) (num den : Nat) (tie : Tie) (place : Int) : Option Nat :=
  let (unitNum, unitDen) : Nat × Nat :=
    if place < 0 then (1, 10 ^ (-place).toNat) else (10 ^ place.toNat, 1)
  let scale (x : Nat) : Nat := x * num * unitDen
  let step := den * unitNum
  let inside (c : Nat) : Bool :=
    let x := c * step
    if i.closed then scale i.low ≤ x && x ≤ scale i.high
    else scale i.low < x && x < scale i.high
  let below := scale i.value / step
  let rest := scale i.value - below * step
  match inside below, inside (below + 1) with
  | false, false => none
  | true, false => some below
  | false, true => some (below + 1)
  | true, true =>
      if 2 * rest < step then some below
      else if step < 2 * rest then some (below + 1)
      else
        match tie with
        | .up => some (below + 1)
        | .even => some (below + below % 2)

/-- The first grid, from the given number of digits on, that holds a decimal for the value. -/
def searchGrids (i : Interval) (num den : Nat) (tie : Tie) (lead : Int) : Nat → Nat → Decimal
  | 0, _ => ⟨0, 0⟩
  | fuel + 1, count =>
      let place := lead - count
      match onGrid i num den tie place with
      | some c => dropZeros 20 ⟨c, place⟩
      | none => searchGrids i num den tie lead fuel (count + 1)

/-- The shortest decimal that reads back as the magnitude of a finite double. -/
def shortest (tie : Tie) (d : Double) : Decimal :=
  if d.mantissa = 0 then ⟨0, 0⟩
  else
    let q := d.exponent - 2
    let (num, den) : Nat × Nat := if q < 0 then (1, 2 ^ (-q).toNat) else (2 ^ q.toNat, 1)
    searchGrids d.interval num den tie (leadingExponent (4 * d.mantissa * num) den) 20 0

end Double

end Stencil
