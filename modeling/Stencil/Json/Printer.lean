import Stencil.Json.Value
import Stencil.Decimal.Layout

/-!
# JSON text

Compact text without spaces, and indented text with one item to a line.
Quotes, backslashes and control characters of a string are escaped, everything
else stands as it is.
-/

namespace Stencil.Json

/-- A hexadecimal digit. -/
def hexDigit (n : Nat) : Char :=
  Char.ofNat (if n < 10 then '0'.toNat + n else 'a'.toNat + n - 10)

/-- A character inside a JSON string. -/
def escapeChar (c : Char) : List Char :=
  if c = '"' then ['\\', '"']
  else if c = '\\' then ['\\', '\\']
  else if c.toNat = 8 then ['\\', 'b']
  else if c = '\t' then ['\\', 't']
  else if c = '\n' then ['\\', 'n']
  else if c.toNat = 12 then ['\\', 'f']
  else if c = '\r' then ['\\', 'r']
  else if c.toNat < 32 then
    ['\\', 'u', '0', '0', hexDigit (c.toNat / 16), hexDigit (c.toNat % 16)]
  else [c]

/-- A string with its quotes. -/
def quote (s : String) : String :=
  String.ofList ('"' :: s.toList.flatMap escapeChar ++ ['"'])

/-- The text of a value that is neither an array nor an object. -/
def scalarText : Json → String
  | .null => "null"
  | .bool b => if b then "true" else "false"
  | .int n => toString n
  | .double d => Layout.json.write d
  | .string s => quote s
  | .array _ => "[]"
  | .object _ => "\x7b\x7d"

mutual
/-- The compact text of a value. -/
def compact : Json → String
  | .array items => "[" ++ compactItems items ++ "]"
  | .object members => "\x7b" ++ compactMembers members ++ "\x7d"
  | v => scalarText v

/-- The items of an array, with commas between them. -/
def compactItems : List Json → String
  | [] => ""
  | [x] => compact x
  | x :: rest => compact x ++ "," ++ compactItems rest

/-- The members of an object, with commas between them. -/
def compactMembers : List (String × Json) → String
  | [] => ""
  | [p] => compactMember p
  | p :: rest => compactMember p ++ "," ++ compactMembers rest

/-- A member of an object. -/
def compactMember : String × Json → String
  | (k, v) => quote k ++ ":" ++ compact v
end

/-- A line break and two spaces for each level. -/
def newline (depth : Nat) : String :=
  String.ofList ('\n' :: List.replicate (2 * depth) ' ')

mutual
/-- The indented text of a value that stands at a depth. -/
def pretty (depth : Nat) : Json → String
  | .array [] => "[]"
  | .object [] => "\x7b\x7d"
  | .array items => "[" ++ prettyItems (depth + 1) items ++ newline depth ++ "]"
  | .object members =>
      "\x7b" ++ prettyMembers (depth + 1) members ++ newline depth ++ "\x7d"
  | v => scalarText v

/-- The items of an array, one to a line. -/
def prettyItems (depth : Nat) : List Json → String
  | [] => ""
  | [x] => newline depth ++ pretty depth x
  | x :: rest => newline depth ++ pretty depth x ++ "," ++ prettyItems depth rest

/-- The members of an object, one to a line. -/
def prettyMembers (depth : Nat) : List (String × Json) → String
  | [] => ""
  | [p] => newline depth ++ prettyMember depth p
  | p :: rest => newline depth ++ prettyMember depth p ++ "," ++ prettyMembers depth rest

/-- A member of an object. -/
def prettyMember (depth : Nat) : String × Json → String
  | (k, v) => quote k ++ ": " ++ pretty depth v
end

/-- The indented text of a value. -/
def prettyText (v : Json) : String := pretty 0 v

end Stencil.Json
