import Stencil.Template.Order
import Stencil.Text.Blank
import Stencil.Text.Case
import Stencil.Text.Split

/-!
# Shapes of texts

Titles, pieces and words, lines moved to the right, and texts in a page.
-/

namespace Stencil.Template

/-- Whether a character ends a word for titles. -/
def isWordBreak (c : Char) : Bool :=
  Text.isBlank c || (c.toNat < 128 && c.toNat > 32 && !c.isAlphanum && c.toNat != 127)

/-- Every word with a capital letter, from a place at which a word may start. -/
def titleFrom : Bool → List Char → List Char
  | _, [] => []
  | start, c :: rest =>
      if isWordBreak c then c :: titleFrom true rest
      else if start then Text.upperForm c ++ titleFrom false rest
      else Text.lowerForm c ++ titleFrom false rest

/-- The first letter as a capital, the rest in lower case. -/
def capitalized (s : String) : String :=
  match s.toList with
  | [] => ""
  | c :: rest => String.ofList (Text.upperForm c) ++ Text.lowercase (String.ofList rest)

/-- A character in a page. -/
def escapedChar (c : Char) : String :=
  if c = '<' then "&lt;"
  else if c = '>' then "&gt;"
  else if c = '&' then "&amp;"
  else if c = '"' then "&quot;"
  else if c = '\'' then "&#x27;"
  else if c = '/' then "&#x2f;"
  else String.singleton c

/-- A text in a page. -/
def escapedText (s : String) : String := String.join (s.toList.map escapedChar)

/-- A value in a page: texts and objects are escaped, a safe text is not. -/
def escaped (w : World) (v : Value) : String :=
  match v with
  | .text s true => s
  | .undefined | .none | .bool _ | .int _ | .float _ => w.text v
  | v => escapedText (w.text v)

/-- Items joined by a text. -/
def joined (separator : String) (texts : List String) : String :=
  String.intercalate separator texts

/-- The pieces of a text between a separator that is not empty, at most so many if there is a
limit. -/
def piecesBetween (separator : List Char) : Nat → Option Nat → List Char → List (List Char)
  | 0, _, cs => [cs]
  | fuel + 1, limit, cs =>
      if limit = some 1 then [cs]
      else
        match Text.beforeList separator cs with
        | none => [cs]
        | some before =>
            before :: piecesBetween separator fuel (limit.map (· - 1))
              (cs.drop (before.length + separator.length))

/-- The pieces of a text around each character: an empty one, the characters, and an empty one.
With a limit the last of them takes the rest. -/
def piecesAround (limit : Option Nat) (cs : List Char) : List (List Char) :=
  let all := [] :: cs.map ([·]) ++ [[]]
  match limit with
  | none => all
  | some n => if n < all.length then all.take (n - 1) ++ [cs.drop (n - 2)] else all

/-- The pieces of a text between a separator, at most so many if there is a limit. -/
def piecesBy (separator : List Char) (limit : Option Nat) (cs : List Char) : List (List Char) :=
  if separator.isEmpty then piecesAround limit cs
  else piecesBetween separator (cs.length + 1) limit cs

/-- The words of a text. -/
def words (cs : List Char) : List (List Char) :=
  ((cs.splitBy fun a b => Text.isBlank a == Text.isBlank b).filter fun word =>
    !word.all Text.isBlank)

/-- The words of a text, at most so many and one; that one takes the rest, and it is empty if only
white space is left. -/
def wordsUpTo : Nat → List Char → List (List Char)
  | n, cs =>
      let rest := cs.dropWhile Text.isBlank
      if rest.isEmpty then if cs.isEmpty then [] else [[]]
      else
        match n with
        | 0 => [rest]
        | n + 1 =>
            let word := rest.takeWhile (!Text.isBlank ·)
            word :: wordsUpTo n (rest.drop word.length)

/-- The text without a line break at its end, and then without a carriage return. -/
def dropBreak (s : String) : String :=
  let s := (Text.dropSuffix "\n" s).getD s
  (Text.dropSuffix "\r" s).getD s

/-- The lines of a text with spaces in front of them. -/
def indented (width : Nat) (first blank : Bool) (s : String) : String :=
  let lead := String.ofList (List.replicate width ' ')
  let move (line : String) : String :=
    if line.isEmpty then (if blank then lead else "") else lead ++ line
  let lines :=
    match Text.split '\n' (dropBreak s) with
    | [] => []
    | line :: rest => (if first then move line else line) :: rest.map move
  dropBreak (String.intercalate "\n" lines ++ "\n")

end Stencil.Template
