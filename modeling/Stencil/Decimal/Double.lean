/-!
# Double precision numbers

A double is its 64 bits, so two doubles are equal exactly when their bits are.
The finite ones are read apart as a sign and a whole multiple of a power of two,
and a decimal number is rounded to the nearest double, ties to the even one.
All of it is exact arithmetic on natural numbers.
-/

namespace Stencil

-- powers of numbers are those of the core library
attribute [local instance (2000)] instPowNat

/-- A double precision number, given by its bits. -/
structure Double where
  bits : UInt64
  deriving DecidableEq, Repr, Inhabited

namespace Double

/-- The double with the bits of a machine number. -/
def ofFloat (f : Float) : Double := ⟨f.toBits⟩

/-- The machine number with the bits of a double. -/
def toFloat (d : Double) : Float := Float.ofBits d.bits

/-- Whether the sign bit is set. -/
def isNegative (d : Double) : Bool := 2 ^ (63 : Nat) ≤ d.bits.toNat

/-- The bits below the sign. -/
def magnitudeBits (d : Double) : Nat := d.bits.toNat % 2 ^ (63 : Nat)

/-- The bits of infinity, above those of every finite magnitude. -/
def infinityBits : Nat := 2047 * 2 ^ (52 : Nat)

/-- Neither infinite nor a NaN. -/
def isFinite (d : Double) : Bool := d.magnitudeBits < infinityBits

/-- One of the values that are no number. -/
def isNaN (d : Double) : Bool := infinityBits < d.magnitudeBits

/-- The double with a sign and the bits of a magnitude. -/
def ofMagnitude (negative : Bool) (magnitude : Nat) : Double :=
  ⟨UInt64.ofNat ((if negative then 2 ^ (63 : Nat) else 0) + magnitude)⟩

/-- A finite magnitude is `mantissa * 2 ^ exponent`. -/
def mantissa (d : Double) : Nat :=
  let e := d.magnitudeBits / 2 ^ (52 : Nat)
  let f := d.magnitudeBits % 2 ^ (52 : Nat)
  if e = 0 then f else f + 2 ^ (52 : Nat)

/-- The power of two in a finite magnitude. -/
def exponent (d : Double) : Int :=
  let e := d.magnitudeBits / 2 ^ (52 : Nat)
  (if e = 0 then 1 else e : Nat) - 1075

/-- The quotient rounded to the nearest whole number, ties to the even one. -/
def roundDiv (num den : Nat) : Nat :=
  let q := num / den
  let r := num % den
  if den < 2 * r then q + 1
  else if 2 * r = den then q + q % 2
  else q

/-- The magnitude bits of the double nearest to `num / den`. -/
def nearestBits (num den : Nat) : Nat :=
  if num = 0 then 0
  else
    let guess : Int := max ((Nat.log2 num : Int) - Nat.log2 den - 52) (-1074)
    let scaled (q : Int) : Nat × Nat :=
      if q < 0 then (num * 2 ^ (-q).toNat, den) else (num, den * 2 ^ q.toNat)
    let q :=
      let (n, d) := scaled guess
      if n / d < 2 ^ (52 : Nat) ∧ -1074 < guess then guess - 1 else guess
    let (n, d) := scaled q
    min infinityBits ((q + 1074).toNat * 2 ^ (52 : Nat) + roundDiv n d)

/-- The number of decimal digits, one for zero. -/
def digitCount (n : Nat) : Nat := (Nat.toDigits 10 n).length

/-- The double nearest to `digits * 10 ^ exponent`. -/
def ofDecimal (negative : Bool) (digits : Nat) (exponent : Int) : Double :=
  let size := exponent + digitCount digits
  ofMagnitude negative <|
    if digits = 0 ∨ size < -400 then 0
    else if 400 < size then infinityBits
    else if exponent < 0 then nearestBits digits (10 ^ (-exponent).toNat)
    else nearestBits (digits * 10 ^ exponent.toNat) 1

/-- The double nearest to a whole number. -/
def ofInt (n : Int) : Double := ofMagnitude (n < 0) (nearestBits n.natAbs 1)

/-- The whole part of a finite double. -/
def truncate (d : Double) : Int :=
  let n : Nat :=
    if d.exponent < 0 then d.mantissa / 2 ^ (-d.exponent).toNat
    else d.mantissa * 2 ^ d.exponent.toNat
  if d.isNegative then -(n : Int) else n

/-- Whether a finite double is a whole number. -/
def isWhole (d : Double) : Bool :=
  d.isFinite && (0 ≤ d.exponent || d.mantissa % 2 ^ (-d.exponent).toNat == 0)

/-- The place of a double among the numbers; both zeros have the same one. -/
def rank (d : Double) : Int := if d.isNegative then -(d.magnitudeBits : Int) else d.magnitudeBits

/-- The place of a double in an order of all doubles: the negative zero comes before the other one,
and values that are no number come before or after all others. -/
def totalRank (d : Double) : Int := if d.isNegative then d.rank - 1 else d.rank

/-- Whether two doubles are equal as numbers. -/
def sameNumber (a b : Double) : Bool := !a.isNaN && !b.isNaN && a.rank == b.rank

/-- A value that is no number, with a sign. -/
def nan (negative : Bool) : Double := ofMagnitude negative (infinityBits + 2 ^ (51 : Nat))

/-- The result of an operation on two doubles.  An operand that is no number is the result, and
where there is none it is no number, with a minus sign. -/
def settle (a b : Double) (result : Float) : Double :=
  if a.isNaN then a
  else if b.isNaN then b
  else if result.isNaN then nan true
  else .ofFloat result

/-- The sum. -/
def add (a b : Double) : Double := settle a b (a.toFloat + b.toFloat)

/-- The difference. -/
def sub (a b : Double) : Double := settle a b (a.toFloat - b.toFloat)

/-- The product. -/
def mul (a b : Double) : Double := settle a b (a.toFloat * b.toFloat)

/-- The quotient. -/
def div (a b : Double) : Double := settle a b (a.toFloat / b.toFloat)

/-- The power. -/
def pow (a b : Double) : Double :=
  let result := a.toFloat ^ b.toFloat
  if result.isNaN then settle a b result else .ofFloat result

/-- A product with a power, by repeated squares. -/
def mulPow (r a : Double) (n : Nat) : Double :=
  let r := if n % 2 = 0 then r else r.mul a
  if n < 2 then r else mulPow r (a.mul a) (n / 2)
termination_by n

/-- The power with a whole exponent. -/
def powInt (a : Double) (n : Int) : Double :=
  let one := ofMagnitude false (1023 * 2 ^ (52 : Nat))
  let r := mulPow one a n.natAbs
  if n < 0 then one.div r else r

/-- The number with the other sign. -/
def neg (d : Double) : Double := ofMagnitude (!d.isNegative) d.magnitudeBits

/-- The magnitude. -/
def abs (d : Double) : Double := ofMagnitude false d.magnitudeBits

/-- The double nearest to `n * 2 ^ e`, with the given sign if it is zero. -/
def ofScaled (negative : Bool) (n : Nat) (e : Int) : Double :=
  ofMagnitude negative <|
    if e < 0 then nearestBits n (2 ^ (-e).toNat) else nearestBits (n * 2 ^ e.toNat) 1

/-- The remainder of a division whose quotient is cut toward zero; it has the sign of the
dividend. -/
def rem (a b : Double) : Double :=
  if a.isNaN then a
  else if b.isNaN then b
  else if !a.isFinite || b.magnitudeBits = 0 then nan true
  else if !b.isFinite then a
  else
    let e := min a.exponent b.exponent
    let scaled (x : Double) : Nat := x.mantissa * 2 ^ (x.exponent - e).toNat
    ofScaled a.isNegative (scaled a % scaled b) e

/-- The quotient cut toward zero. -/
def cut (d : Double) : Double :=
  if d.isFinite then ofScaled d.isNegative d.truncate.natAbs 0 else d

/-- The whole quotient that leaves a remainder that is not negative. -/
def floorDiv (a b : Double) : Double :=
  let q := (a.div b).cut
  let r := a.rem b
  if r.isNegative && r.magnitudeBits != 0 && !r.isNaN then
    if b.isNegative then q.add (ofInt 1) else q.sub (ofInt 1)
  else q

end Double

end Stencil
