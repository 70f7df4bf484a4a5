import Stencil.Decimal.Layout

/-!
# Doubles with a fixed number of digits

A finite double in units of a power of ten, rounded to the nearest whole number
of them, ties to the even one, and the texts that show it with so many places or
so many digits.
-/

namespace Stencil

-- powers of numbers are those of the core library
attribute [local instance (2000)] instPowNat

namespace Double

/-- The magnitude of a finite double as a quotient of whole numbers. -/
def ratio (d : Double) : Nat × Nat :=
  if d.exponent < 0 then (d.mantissa, 2 ^ (-d.exponent).toNat)
  else (d.mantissa * 2 ^ d.exponent.toNat, 1)

/-- The magnitude in units of `10 ^ place`. -/
def inUnits (d : Double) (place : Int) : Nat :=
  let (num, den) := d.ratio
  if place < 0 then roundDiv (num * 10 ^ (-place).toNat) den
  else roundDiv num (den * 10 ^ place.toNat)

/-- The magnitude as so many digits and the exponent of the first one. -/
def leadingDigits (count : Nat) (d : Double) : Nat × Int :=
  if d.mantissa = 0 then (0, 0)
  else
    let (num, den) := d.ratio
    let first := leadingExponent num den
    let digits := d.inUnits (first - (count - 1 : Nat))
    if digits < 10 ^ count then (digits, first) else (digits / 10, first + 1)

end Double

namespace Layout

/-- Digits with a point before the last so many of them. -/
def withPoint (places digits : Nat) : List Char :=
  let shown := Nat.toDigits 10 digits
  let padded := List.replicate (places + 1 - shown.length) '0' ++ shown
  let whole := padded.length - places
  padded.take whole ++ (if places = 0 then [] else '.' :: padded.drop whole)

/-- The magnitude of a finite double with so many places. -/
def writePlaces (places : Nat) (d : Double) : List Char := withPoint places (d.inUnits (-places))

/-- An exponent with its sign and at least two digits. -/
def writeExponent (e : Int) : List Char :=
  let digits := Nat.toDigits 10 e.natAbs
  (if e < 0 then '-' else '+') :: (List.replicate (2 - digits.length) '0' ++ digits)

/-- The magnitude of a finite double as one digit, so many places and an exponent. -/
def writePower (places : Nat) (d : Double) : List Char :=
  let (digits, e) := d.leadingDigits (places + 1)
  withPoint places digits ++ 'e' :: writeExponent e

/-- Digits without the zeros behind the point at their end. -/
def dropPlaces (cs : List Char) : List Char :=
  if cs.contains '.' then
    match cs.reverse.dropWhile (· = '0') with
    | '.' :: rest => rest.reverse
    | rest => rest.reverse
  else cs

/-- The magnitude of a finite double with so many digits: with an exponent if it is below `1e-4` or
has more digits before the point, and without zeros at the end unless they are kept. -/
def writeDigits (count : Nat) (keep : Bool) (d : Double) : List Char :=
  let count := max count 1
  let (digits, e) := d.leadingDigits count
  let tidy (cs : List Char) : List Char := if keep then cs else dropPlaces cs
  if -4 ≤ e ∧ e < count then tidy (writePlaces (count - 1 - e).toNat d)
  else tidy (withPoint (count - 1) digits) ++ 'e' :: writeExponent e

end Layout

end Stencil
