import Stencil.Decimal.Double

/-!
# Tokens of templates

A template is text with tags in it.  Between the tags stands text, inside a tag
stand names, literals and marks.
-/

namespace Stencil.Template

/-- Why a text cannot be cut into tokens. -/
inductive TokenFault where
  | openComment
  | openRaw
  | openText
  | badEscape
  | trailingUnderscore
  | badFloat
  | largeInteger
  | strayCharacter
  deriving DecidableEq, Repr

/-- The text of a fault. -/
def TokenFault.message : TokenFault → String
  | .openComment => "unexpected end of comment"
  | .openRaw => "unexpected end of raw block"
  | .openText => "unexpected end of string"
  | .badEscape => "bad string escape"
  | .trailingUnderscore => "'_' may not occur at end of number"
  | .badFloat => "invalid float"
  | .largeInteger => "invalid integer (too large)"
  | .strayCharacter => "unexpected character"

/-- A token.  Text that cannot be cut further ends in a fault. -/
inductive Token where
  | data (text : String)
  | outputStart
  | outputEnd
  | tagStart
  | tagEnd
  | name (s : String)
  | text (s : String)
  | int (n : Nat)
  | float (d : Double)
  | mark (s : String)
  | fault (f : TokenFault)
  deriving DecidableEq, Repr

/-- How a token is called in messages. -/
def Token.describe : Token → String
  | .data _ => "template-data"
  | .outputStart => "start of variable block"
  | .outputEnd => "end of variable block"
  | .tagStart => "start of block"
  | .tagEnd => "end of block"
  | .name _ => "identifier"
  | .text _ => "string"
  | .int _ => "integer"
  | .float _ => "float"
  | .mark s => "\x60" ++ s ++ "\x60"
  | .fault f => f.message

/-- A token and the line it starts in. -/
structure Placed where
  token : Token
  line : Nat
  deriving DecidableEq, Repr

end Stencil.Template
