import Stencil.Yaml.Token
import Stencil.Text.Split
import Stencil.Decimal.Read

/-!
# What a scalar means

A plain scalar may spell nothing, a truth value or a number; every other scalar
is text.  A tag of the YAML schema asks for one of these readings.
-/

namespace Stencil.Yaml

-- powers of numbers are those of the core library
attribute [local instance (2000)] instPowNat

/-- The value that a scalar stands for. -/
inductive Meaning where
  | null
  | bool (b : Bool)
  | int (n : Int)
  /-- A whole number that does not fit 64 bits. -/
  | wide (n : Int)
  | float (d : Double)
  | text (s : String)
  deriving DecidableEq, Repr

namespace Meaning

/-- The spellings of nothing. -/
def isNull (s : String) : Bool := ["null", "Null", "NULL", "~"].contains s

/-- The truth value that a text spells. -/
def bool? (s : String) : Option Bool :=
  if ["true", "True", "TRUE"].contains s then some true
  else if ["false", "False", "FALSE"].contains s then some false
  else none

/-- Digits after a leading zero are text, not a number. -/
def isZeroPadded (cs : List Char) : Bool :=
  let body :=
    match cs with
    | '-' :: rest | '+' :: rest => rest
    | _ => cs
  match body with
  | '0' :: rest => !rest.isEmpty && rest.all Char.isDigit
  | _ => false

/-- The bases with a mark of their own. -/
def bases : List (List Char × Nat) :=
  [("0x".toList, 16), ("0o".toList, 8), ("0b".toList, 2)]

/-- The magnitude that digits spell, with or without the mark of a base. -/
def magnitude? (cs : List Char) : Option Nat :=
  let marked := bases.findSome? fun (mark, base) =>
    (Text.dropPrefixList mark cs).bind (Decimal.readNat? base)
  match marked with
  | some n => some n
  | none => if isZeroPadded cs then none else Decimal.readNat? 10 cs

/-- The whole number that a text spells. -/
def whole? (cs : List Char) : Option Int :=
  match cs with
  | '+' :: rest => (magnitude? rest).map fun n => (n : Int)
  | '-' :: rest => (magnitude? rest).map fun n => -(n : Int)
  | _ => (magnitude? cs).map fun n => (n : Int)

/-- The number that a text spells as a decimal, if it is finite, infinite or none at all. -/
def float? (s : String) : Option Double :=
  let cs := s.toList
  let unsigned : Option (List Char) :=
    match cs with
    | '+' :: '+' :: _ | '+' :: '-' :: _ => none
    | '+' :: rest => some rest
    | _ => some cs
  match unsigned with
  | none => none
  | some body =>
      let word := String.ofList body
      if [".inf", ".Inf", ".INF"].contains word then
        some (.ofMagnitude false Double.infinityBits)
      else if ["-.inf", "-.Inf", "-.INF"].contains s then
        some (.ofMagnitude true Double.infinityBits)
      else if [".nan", ".NaN", ".NAN"].contains s then
        some (.ofMagnitude false (Double.infinityBits + 2 ^ (51 : Nat)))
      else (Decimal.readDouble? body).filter (·.isFinite)

/-- A whole number by its size; one of more than 128 bits is no whole number. -/
def ofInt? (n : Int) : Option Meaning :=
  if -(2 ^ (63 : Nat)) ≤ n ∧ n < 2 ^ (64 : Nat) then some (.int n)
  else if -(2 ^ (127 : Nat)) ≤ n ∧ n < 2 ^ (128 : Nat) then some (.wide n)
  else none

/-- The whole number that a text spells. -/
def int? (s : String) : Option Meaning := (whole? s.toList).bind ofInt?

/-- The meaning of a plain scalar. -/
def ofPlain (s : String) : Meaning :=
  if s.isEmpty || isNull s then .null
  else
    match bool? s with
    | some b => .bool b
    | none =>
        match int? s with
        | some m => m
        | none =>
            if isZeroPadded s.toList then .text s
            else
              match float? s with
              | some d => .float d
              | none => .text s

/-- The tag of a kind of scalar in the YAML schema. -/
def schemaTag (kind : String) : String := "tag:yaml.org,2002:" ++ kind

/-- The meaning of a scalar with a tag that is not local, unless the tag asks for a reading that
the text does not have. -/
def ofTagged? (tag : String) (s : String) : Option Meaning :=
  if tag = schemaTag "bool" then (bool? s).map .bool
  else if tag = schemaTag "int" then int? s
  else if tag = schemaTag "float" then (float? s).map .float
  else if tag = schemaTag "null" then if isNull s then some .null else none
  else some (.text s)

/-- The meaning of a scalar without a tag. -/
def ofScalar (style : Style) (s : String) : Meaning :=
  if style = .plain then ofPlain s else .text s

end Meaning

end Stencil.Yaml
