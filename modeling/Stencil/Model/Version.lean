import Stencil.Decimal.Read
import Stencil.Json.Mismatch
import Stencil.Text.Blank
import Stencil.Text.Split

/-!
# Versions

A version is a pair of numbers below `2 ^ 32`, written with a dot between them.
-/

namespace Stencil.Model

-- powers of numbers are those of the core library
attribute [local instance (2000)] instPowNat

/-- The version of a module. -/
structure Version where
  major : UInt32
  minor : UInt32
  deriving DecidableEq, Repr, Inhabited

/-- Why a text or a value is no version. -/
inductive VersionError where
  | shape (text : String)
  | major
  | minor
  | notText (found : Json)
  deriving DecidableEq

/-- The text of an error. -/
def VersionError.message : VersionError → String
  | .shape text => "invalid version '" ++ text ++ "', expected 'X.Y'"
  | .major => "invalid major"
  | .minor => "invalid minor"
  | .notText found => found.mismatch "a string"

namespace Version

/-- The two numbers with a dot between them. -/
def text (v : Version) : String := toString v.major.toNat ++ "." ++ toString v.minor.toNat

/-- The order by major, then by minor number. -/
def compare (a b : Version) : Ordering :=
  (Ord.compare a.major.toNat b.major.toNat).then (Ord.compare a.minor.toNat b.minor.toNat)

/-- A number of a version: digits with an optional plus sign, below `2 ^ 32`. -/
def part? (cs : List Char) : Option UInt32 :=
  match Decimal.readUnsigned? 10 cs with
  | some n => if n < 2 ^ (32 : Nat) then some (UInt32.ofNat n) else none
  | none => none

/-- Reads a version; white space around it does not matter. -/
def parse (s : String) : Except VersionError Version :=
  match Text.pieces '.' (Text.trimList Text.isBlank s.toList) with
  | [a, b] =>
      match part? a, part? b with
      | some major, some minor => .ok ⟨major, minor⟩
      | none, _ => .error .major
      | _, none => .error .minor
  | _ => .error (.shape s)

/-- Reads the version in a value, which has to be a text. -/
def ofJson : Json → Except VersionError Version
  | .string s => parse s
  | v => .error (.notText v)

end Version

end Stencil.Model
