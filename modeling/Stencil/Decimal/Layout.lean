import Stencil.Decimal.Shortest

/-!
# Layouts of decimal numbers

How the digits of a double are written down: from which exponents on the
scientific form is used, and how it shows its exponent.
-/

namespace Stencil

/-- The decisions of one format for doubles. -/
structure Layout where
  /-- The leading exponents from which on and below which all digits are written out. -/
  plainFrom : Option Int
  plainBelow : Option Int
  /-- Whether a positive exponent carries its sign. -/
  exponentSign : Bool
  tie : Double.Tie
  nan : String
  infinity : String

namespace Layout

/-- JSON text: all digits from `1e-5` to below `1e16`, else `1.5e+21`. -/
def json : Layout := ⟨some (-5), some 16, true, .even, "null", "null"⟩

/-- Numbers of a YAML text turned into text: as in JSON, but `1e16`. -/
def yaml : Layout := ⟨some (-5), some 16, false, .even, ".nan", ".inf"⟩

/-- Numbers printed by templates: always all digits. -/
def plain : Layout := ⟨none, none, false, .up, "NaN", "inf"⟩

/-- Numbers inside the lists and maps that templates print: all digits from `1e-4` to below
`1e16`, else `1.5e21`. -/
def nested : Layout := ⟨some (-4), some 16, false, .up, "NaN", "inf"⟩

/-- All digits of a decimal, with at least one on each side of the point. -/
def writePlain (d : Decimal) : String :=
  let digits := Nat.toDigits 10 d.digits
  if 0 ≤ d.exponent then
    String.ofList (digits ++ List.replicate d.exponent.toNat '0' ++ ['.', '0'])
  else
    let places := (-d.exponent).toNat
    let padded := List.replicate (places + 1 - digits.length) '0' ++ digits
    let whole := padded.length - places
    String.ofList (padded.take whole ++ '.' :: padded.drop whole)

/-- The exponent of the first digit. -/
def leading (d : Decimal) : Int := d.exponent + Double.digitCount d.digits - 1

/-- One digit before the point, the others after it, and the exponent. -/
def writeScientific (l : Layout) (d : Decimal) : String :=
  let e := leading d
  let sign := if 0 ≤ e ∧ l.exponentSign then "+" else ""
  let mantissa :=
    match Nat.toDigits 10 d.digits with
    | [] => []
    | [c] => [c]
    | c :: rest => c :: '.' :: rest
  String.ofList mantissa ++ "e" ++ sign ++ toString e

/-- Whether the layout writes all digits of the decimal. -/
def isPlain (l : Layout) (d : Decimal) : Bool :=
  d.digits == 0 ||
    ((match l.plainFrom with | some e => decide (e ≤ leading d) | none => true) &&
      (match l.plainBelow with | some e => decide (leading d < e) | none => true))

/-- The text of a double. -/
def write (l : Layout) (x : Double) : String :=
  if x.isNaN then l.nan
  else
    let sign := if x.isNegative then "-" else ""
    if !x.isFinite then sign ++ l.infinity
    else
      let d := x.shortest l.tie
      sign ++ (if l.isPlain d then writePlain d else l.writeScientific d)

end Layout

end Stencil
