import Stencil.Text.Case
import Stencil.Text.InvisibleRanges

/-!
# Quoted text

Text between double quotes, in which quotes, backslashes, line breaks and
characters that would not show are escaped.
-/

namespace Stencil.Text

/-- The digits of a number in base 16, at least one. -/
def hex (n : Nat) : String := String.ofList (Nat.toDigits 16 n)

/-- A character between double quotes. -/
def quotedChar (c : Char) : String :=
  if c = '\x00' then "\\0"
  else if c = '\t' then "\\t"
  else if c = '\n' then "\\n"
  else if c = '\r' then "\\r"
  else if c = '"' then "\\\""
  else if c = '\\' then "\\\\"
  else if c.toNat < 32 || c.toNat = 127 || inRanges invisibleRanges c then
    "\\u\x7b" ++ hex c.toNat ++ "\x7d"
  else String.singleton c

/-- The text between double quotes. -/
def quoted (s : String) : String := "\"" ++ String.join (s.toList.map quotedChar) ++ "\""

end Stencil.Text
