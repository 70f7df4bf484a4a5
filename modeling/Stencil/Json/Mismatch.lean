import Stencil.Json.Printer
import Stencil.Text.Quoted

/-!
# Values that are not what is expected

The texts about a value of another type, a list of another length and a member
that is not there.
-/

namespace Stencil

namespace Json

/-- What a value is, with its content as far as it is a scalar. -/
def found : Json → String
  | .null => "null"
  | .bool b => "boolean \x60" ++ (if b then "true" else "false") ++ "\x60"
  | .int n => "integer \x60" ++ toString n ++ "\x60"
  | .double d => "floating point \x60" ++ Layout.yaml.write d ++ "\x60"
  | .string s => "string " ++ Text.quoted s
  | .array _ => "sequence"
  | .object _ => "map"

/-- The text about a value that is not what is expected. -/
def mismatch (v : Json) (expected : String) : String :=
  "invalid type: " ++ v.found ++ ", expected " ++ expected

end Json

/-- The text about a list that is too short or too long. -/
def lengthMismatch (length : Nat) (expected : String) : String :=
  "invalid length " ++ toString length ++ ", expected " ++ expected

/-- The text about a member that is not there. -/
def missingMember (name : String) : String := "missing field \x60" ++ name ++ "\x60"

end Stencil
