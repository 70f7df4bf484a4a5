import Stencil.Decimal.Double

/-!
# Reading numbers

Whole numbers in a base, with a limit above which they do not fit, and decimal
numbers with a fraction and an exponent.
-/

namespace Stencil.Decimal

/-- The value of a digit in a base of at most sixteen. -/
def digitValue? (base : Nat) (c : Char) : Option Nat :=
  let v :=
    if '0' ≤ c ∧ c ≤ '9' then c.toNat - '0'.toNat
    else if 'a' ≤ c ∧ c ≤ 'f' then c.toNat - 'a'.toNat + 10
    else if 'A' ≤ c ∧ c ≤ 'F' then c.toNat - 'A'.toNat + 10
    else 99
  if v < base then some v else none

/-- The value of a run of digits, read on from a value. -/
def readDigits (base : Nat) : Nat → List Char → Option Nat
  | acc, [] => some acc
  | acc, c :: rest =>
      match digitValue? base c with
      | some v => readDigits base (acc * base + v) rest
      | none => none

/-- A natural number in a base; there has to be a digit. -/
def readNat? (base : Nat) (cs : List Char) : Option Nat :=
  if cs.isEmpty then none else readDigits base 0 cs

/-- A natural number with an optional plus sign. -/
def readUnsigned? (base : Nat) : List Char → Option Nat
  | '+' :: rest => readNat? base rest
  | cs => readNat? base cs

/-- A whole number with an optional sign. -/
def readInt? (base : Nat) : List Char → Option Int
  | '-' :: rest => (readNat? base rest).map fun n => -(n : Int)
  | cs => (readUnsigned? base cs).map fun n => (n : Int)

/-- The digits at the start of a text and what follows them. -/
def spanDigits (cs : List Char) : List Char × List Char :=
  (cs.takeWhile Char.isDigit, cs.dropWhile Char.isDigit)

/-- The exponent part of a decimal number, zero when there is none. -/
def readExponent? : List Char → Option Int
  | [] => some 0
  | c :: rest => if c = 'e' ∨ c = 'E' then readInt? 10 rest else none

/-- An unsigned decimal number as its digits and its power of ten. -/
def readMagnitude? (cs : List Char) : Option (Nat × Int) :=
  let (whole, rest) := spanDigits cs
  let (fraction, rest) :=
    match rest with
    | '.' :: rest => spanDigits rest
    | _ => ([], rest)
  if whole.isEmpty && fraction.isEmpty then none
  else
    match readNat? 10 (whole ++ fraction), readExponent? rest with
    | some digits, some e => some (digits, e - fraction.length)
    | _, _ => none

/-- A sign and what follows it; without a sign it is plus. -/
def readSign : List Char → Bool × List Char
  | '-' :: rest => (true, rest)
  | '+' :: rest => (false, rest)
  | cs => (false, cs)

/-- A decimal number with an optional sign, rounded to a double. -/
def readDouble? (cs : List Char) : Option Double :=
  let (negative, body) := readSign cs
  (readMagnitude? body).map fun (digits, e) => Double.ofDecimal negative digits e

/-- A decimal number, or a word for infinity or for no number in any letter case, with an optional
sign. -/
def readExtended? (cs : List Char) : Option Double :=
  let (negative, body) := readSign cs
  let word := String.ofList (body.map Char.toLower)
  if word = "inf" ∨ word = "infinity" then some (.ofMagnitude negative Double.infinityBits)
  else if word = "nan" then some (.nan negative)
  else readDouble? cs

end Stencil.Decimal
