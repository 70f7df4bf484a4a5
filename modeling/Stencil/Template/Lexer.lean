import Stencil.Decimal.Read
import Stencil.Template.Token
import Stencil.Text.Blank
import Stencil.Text.Split

/-!
# Cutting templates into tokens

An output tag `{{ }}` prints a value, a tag `{% %}` is a statement, and `{# #}`
is a comment.  A dash next to a mark removes the white space on its side.
Without a dash, a tag or comment that starts a line takes the spaces before it,
and the line break right after it goes as well; a plus keeps them.
-/

namespace Stencil.Template

-- powers of numbers are those of the core library
attribute [local instance (2000)] instPowNat

/-- What stands next to a mark that opens or closes a tag. -/
inductive Margin where
  | default
  | remove
  | keep
  deriving DecidableEq, Repr

/-- The margin that a character asks for. -/
def Margin.ofChar? (c : Char) : Option Margin :=
  if c = '-' then some .remove else if c = '+' then some .keep else none

/-- A place in a template. -/
structure Position where
  rest : List Char
  line : Nat
  /-- Only white space stands before this place in its line. -/
  lineStart : Bool
  deriving Repr

namespace Position

/-- The place before a template. -/
def start (s : String) : Position := ⟨s.toList, 1, true⟩

/-- Whether only white space stands before the place that some characters lead to. -/
def startsLine (before : Bool) (cs : List Char) : Bool :=
  match cs.reverse.find? (fun c => c = '\n' || c = '\r' || !Text.isBlank c) with
  | some c => c = '\n' || c = '\r'
  | none => before

/-- The place after the next characters. -/
def skip (p : Position) (n : Nat) : Position :=
  let taken := p.rest.take n
  ⟨p.rest.drop n, p.line + taken.count '\n', startsLine p.lineStart taken⟩

/-- The place after the white space of a class. -/
def skipWhile (p : Position) (f : Char → Bool) : Position :=
  p.skip (p.rest.takeWhile f).length

/-- The place after one line break. -/
def skipBreak (p : Position) : Position :=
  match p.rest with
  | '\r' :: '\n' :: _ => p.skip 2
  | '\n' :: _ => p.skip 1
  | '\r' :: _ => p.skip 1
  | _ => p

/-- Whether the text goes on with some characters. -/
def at_ (p : Position) (s : String) : Bool := (Text.dropPrefixList s.toList p.rest).isSome

/-- The place after a closing mark with its margin. -/
def afterClosing (p : Position) : Margin → Position
  | .default => p.skipBreak
  | .remove => p.skipWhile Text.isBlank
  | .keep => p

end Position

/-- White space inside tags. -/
def isGap (c : Char) : Bool :=
  c = ' ' || c = '\t' || c = '\n' || c = '\r' || c = '\x0c'

/-- The first character of a name. -/
def isNameStart (c : Char) : Bool := c.isAlpha || c = '_'

/-- A further character of a name. -/
def isNameRest (c : Char) : Bool := c.isAlphanum || c = '_'

/-- The text up to the next opening mark and what follows it. -/
def spanData : List Char → List Char × List Char
  | [] => ([], [])
  | '{' :: c :: rest =>
      if c = '{' || c = '%' || c = '#' then ([], '{' :: c :: rest)
      else
        let (data, after) := spanData (c :: rest)
        ('{' :: data, after)
  | c :: rest =>
      let (data, after) := spanData rest
      (c :: data, after)

/-- The text without the white space at its end, if that starts the text or a line. -/
def dropIndent (cs : List Char) : List Char :=
  match cs.reverse.dropWhile fun c => Text.isBlank c && c != '\n' with
  | [] => []
  | '\n' :: rest => ('\n' :: rest).reverse
  | _ => cs

/-- The text without white space at its end. -/
def dropBlankEnd (cs : List Char) : List Char := (cs.reverse.dropWhile Text.isBlank).reverse

/-- The text before a mark with its margin: tags that start a line take the spaces before them. -/
def beforeOpening (data : List Char) (lineStart : Bool) : Margin → List Char
  | .default => if Position.startsLine lineStart data then dropIndent data else data
  | .remove => dropBlankEnd data
  | .keep => data

/-- The margin after an opening mark, and the place behind it. -/
def openingMargin (p : Position) : Margin × Position :=
  match p.rest.head?.bind Margin.ofChar? with
  | some m => (m, p.skip 1)
  | none => (.default, p)

/-- A tag that holds one word, from behind its opening mark: the margin of its end and what
follows. -/
def wordTag? (word : String) (p : Position) : Option (Margin × Position) :=
  let p := p.skipWhile isGap
  if p.at_ word then
    let p := (p.skip word.length).skipWhile isGap
    let (margin, p) := openingMargin p
    if p.at_ "%\x7d" then some (margin, p.skip 2) else none
  else none

/-- The text of a raw block up to the tag that ends it: its characters, the margins on both sides
of that tag, and what follows. -/
def rawBody (fuel : Nat) (seen : List Char) (p : Position) :
    Option (List Char × Margin × Margin × Position) :=
  match fuel with
  | 0 => none
  | fuel + 1 =>
      match p.rest with
      | [] => none
      | c :: _ =>
          let found :=
            if p.at_ "\x7b%" then
              let (before, q) := openingMargin (p.skip 2)
              (wordTag? "endraw" q).map fun (after, q) => (seen.reverse, before, after, q)
            else none
          match found with
          | some r => some r
          | none => rawBody fuel (c :: seen) (p.skip 1)

/-- The characters up to the quote that ends a literal, and what follows it. -/
def quotedBody (quote : Char) : List Char → Option (List Char × List Char)
  | [] => none
  | '\\' :: c :: rest =>
      (quotedBody quote rest).map fun (body, after) => ('\\' :: c :: body, after)
  | c :: rest =>
      if c = quote then some ([], rest)
      else (quotedBody quote rest).map fun (body, after) => (c :: body, after)

/-- The value of so many hexadecimal digits; a plus sign may stand for the first of them. -/
def hexValue? (count : Nat) (cs : List Char) : Option (Nat × List Char) :=
  if cs.length < count then none
  else (Decimal.readUnsigned? 16 (cs.take count)).map fun n => (n, cs.drop count)

/-- The character that stands for four hexadecimal digits; two halves of a pair stand for one. -/
def unicodeChar? (cs : List Char) : Option (Char × List Char) :=
  match hexValue? 4 cs with
  | none => none
  | some (n, rest) =>
      if 0xd800 ≤ n ∧ n < 0xdc00 then
        match rest with
        | '\\' :: 'u' :: rest =>
            match hexValue? 4 rest with
            | some (low, rest) =>
                if 0xdc00 ≤ low ∧ low < 0xe000 then
                  some (Char.ofNat (0x10000 + (n - 0xd800) * 0x400 + (low - 0xdc00)), rest)
                else none
            | none => none
        | _ => none
      else if 0xdc00 ≤ n ∧ n < 0xe000 then none
      else some (Char.ofNat n, rest)

/-- An octal digit. -/
def isOctal (c : Char) : Bool := '0' ≤ c && c ≤ '7'

/-- The character that stands for up to three octal digits, which make a byte. -/
def octalChar? (cs : List Char) : Option (Char × List Char) :=
  let digits := (cs.take 3).takeWhile isOctal
  match Decimal.readNat? 8 digits with
  | some n => if n < 256 then some (Char.ofNat n, cs.drop digits.length) else none
  | none => none

/-- The characters that a mark behind a backslash stands for, and what follows them.  A mark without
a meaning keeps its backslash. -/
def escapedChars? (c : Char) (rest : List Char) : Option (List Char × List Char) :=
  let one (r : Option (Char × List Char)) : Option (List Char × List Char) :=
    r.map fun (d, rest) => ([d], rest)
  match c with
  | '"' | '\'' | '\\' | '/' => some ([c], rest)
  | 'b' => some (['\x08'], rest)
  | 'f' => some (['\x0c'], rest)
  | 'n' => some (['\n'], rest)
  | 'r' => some (['\r'], rest)
  | 't' => some (['\t'], rest)
  | 'u' => one (unicodeChar? rest)
  | 'x' => one ((hexValue? 2 rest).map fun (n, rest) => (Char.ofNat n, rest))
  | c => if isOctal c then one (octalChar? (c :: rest)) else some (['\\', c], rest)

/-- The characters that a literal stands for. -/
def unescape (fuel : Nat) (cs : List Char) : Option (List Char) :=
  match fuel with
  | 0 => some []
  | fuel + 1 =>
      match cs with
      | [] => some []
      | '\\' :: c :: rest =>
          (escapedChars? c rest).bind fun (found, rest) => (unescape fuel rest).map (found ++ ·)
      | '\\' :: [] => none
      | c :: rest => (unescape fuel rest).map (c :: ·)

/-- The part of a number that is being read. -/
inductive NumberPart where
  | whole
  | radix
  | fraction
  | exponent
  | exponentDigits
  deriving DecidableEq

/-- The part that a character of a number leads to; a point has to have a digit behind it. -/
def NumberPart.next? (base : Nat) (part : NumberPart) (c : Char) (rest : List Char) :
    Option NumberPart :=
  if c = '.' then
    if part = .whole && (rest.head?.any Char.isDigit) then some .fraction else none
  else if (c = 'e' || c = 'E') && (part = .whole || part = .fraction) then some .exponent
  else if (c = '+' || c = '-') then if part = .exponent then some .exponentDigits else none
  else if c.isDigit then some (if part = .exponent then .exponentDigits else part)
  else if part = .radix && base = 16 && (Decimal.digitValue? 16 c).isSome then some part
  else if c = '_' then some part
  else none

/-- The characters of a number, the part it ends in, and what follows. -/
def spanNumber (base : Nat) : NumberPart → List Char → List Char × NumberPart × List Char
  | part, [] => ([], part, [])
  | part, c :: rest =>
      match part.next? base c rest with
      | some next =>
          let (cs, last, after) := spanNumber base next rest
          (c :: cs, last, after)
      | none => ([], part, c :: rest)

/-- The base that a number starts with. -/
def numberBase : List Char → Nat
  | '0' :: 'b' :: _ | '0' :: 'B' :: _ => 2
  | '0' :: 'o' :: _ | '0' :: 'O' :: _ => 8
  | '0' :: 'x' :: _ | '0' :: 'X' :: _ => 16
  | _ => 10

/-- The token of a number and the count of its characters. -/
def numberToken (cs : List Char) : Token × Nat :=
  let base := numberBase cs
  let mark := if base = 10 then 0 else 2
  let (body, part, _) := spanNumber base (if base = 10 then .whole else .radix) (cs.drop mark)
  let digits := body.filter (· != '_')
  let token : Token :=
    if body.getLast? = some '_' then .fault .trailingUnderscore
    else if part = .whole || part = .radix then
      match Decimal.readNat? base digits with
      | some n => if n < 2 ^ (128 : Nat) then .int n else .fault .largeInteger
      | none => .fault .largeInteger
    else
      match Decimal.readDouble? digits with
      | some d => .float d
      | none => .fault .badFloat
  (token, mark + body.length)

/-- The marks of two characters. -/
def pairMarks : List String := ["//", "**", "==", "!=", ">=", "<="]

/-- The marks of one character. -/
def singleMarks : List Char :=
  ['+', '-', '*', '/', '%', '.', ',', ':', '~', '|', '=', '<', '>', '(', '[', '{', ')', ']', '}']

/-- How a mark changes the number of open brackets. -/
def bracketStep (c : Char) : Int :=
  if c = '(' || c = '[' || c = '{' then 1
  else if c = ')' || c = ']' || c = '}' then -1
  else 0

/-- The next token inside a tag, the count of its characters, and its effect on open brackets. -/
def innerToken (cs : List Char) : Token × Nat × Int :=
  match cs with
  | [] => (.fault .strayCharacter, 0, 0)
  | c :: rest =>
      let pair := String.ofList (cs.take 2)
      if pairMarks.contains pair then (.mark pair, 2, 0)
      else if singleMarks.contains c then (.mark (String.singleton c), 1, bracketStep c)
      else if c = '"' || c = '\'' then
        match quotedBody c rest with
        | none => (.fault .openText, 0, 0)
        | some (body, _) =>
            match unescape (body.length + 1) body with
            | some s => (.text (String.ofList s), body.length + 2, 0)
            | none => (.fault .badEscape, 0, 0)
      else if c.isDigit then
        let (token, n) := numberToken cs
        (token, n, 0)
      else if isNameStart c then
        let word := cs.takeWhile isNameRest
        (.name (String.ofList word), word.length, 0)
      else (.fault .strayCharacter, 0, 0)

/-- Where the cutting stands: in text, or inside a tag with some brackets open. -/
inductive Mode where
  | data
  | output (brackets : Int)
  | tag (brackets : Int)
  deriving DecidableEq, Repr

/-- The end of a tag at this place: its margin and the place behind it. -/
def tagEnd? (close : String) (p : Position) : Option (Margin × Position) :=
  if p.at_ close then some (.default, p.skip 2)
  else
    match p.rest.head?.bind Margin.ofChar? with
    | some m => if (p.skip 1).at_ close then some (m, p.skip 3) else none
    | none => none

/-- Text between tags as a token, unless there is none. -/
def dataToken (cs : List Char) (line : Nat) : List Placed :=
  if cs.isEmpty then [] else [⟨.data (String.ofList cs), line⟩]

/-- The tokens from a place on.  Every step takes at least one character, so their count is fuel
enough. -/
def scan (fuel : Nat) (mode : Mode) (p : Position) : List Placed :=
  match fuel with
  | 0 => []
  | fuel + 1 =>
      match mode with
      | .data =>
          let (data, after) := spanData p.rest
          let q := p.skip data.length
          match after with
          | [] => dataToken data p.line
          | _ :: '{' :: _ =>
              let (margin, inner) :=
                match (q.skip 2).rest.head? with
                | some '-' => (Margin.remove, q.skip 3)
                | some '+' => (Margin.keep, q.skip 3)
                | _ => (Margin.keep, q.skip 2)
              let lead := if margin = .remove then dropBlankEnd data else data
              dataToken lead p.line ++ ⟨.outputStart, q.line⟩ :: scan fuel (.output 0) inner
          | _ :: '#' :: _ =>
              let (margin, inner) := openingMargin (q.skip 2)
              let lead := beforeOpening data p.lineStart margin
              match Text.beforeList ['#', '}'] inner.rest with
              | none => dataToken lead p.line ++ [⟨.fault .openComment, q.line⟩]
              | some comment =>
                  let ending := (comment.getLast?.bind Margin.ofChar?).getD .default
                  let next := (inner.skip (comment.length + 2)).afterClosing ending
                  dataToken lead p.line ++ scan fuel .data next
          | _ =>
              let (margin, inner) := openingMargin (q.skip 2)
              let lead := beforeOpening data p.lineStart margin
              match wordTag? "raw" inner with
              | some (first, body) =>
                  let body := body.afterClosing first
                  match rawBody (body.rest.length + 1) [] body with
                  | none => dataToken lead p.line ++ [⟨.fault .openRaw, q.line⟩]
                  | some (cs, before, after, next) =>
                      let kept := beforeOpening cs true before
                      dataToken lead p.line ++ dataToken kept body.line
                        ++ scan fuel .data (next.afterClosing after)
              | none => dataToken lead p.line ++ ⟨.tagStart, q.line⟩ :: scan fuel (.tag 0) inner
      | .output brackets =>
          let p := p.skipWhile isGap
          if p.rest.isEmpty then []
          else
            match if brackets = 0 then tagEnd? "\x7d\x7d" p else none with
            | some (margin, next) =>
                let next := if margin = .remove then next.skipWhile Text.isBlank else next
                ⟨.outputEnd, p.line⟩ :: scan fuel .data next
            | none =>
                match innerToken p.rest with
                | (.fault f, _, _) => [⟨.fault f, p.line⟩]
                | (token, n, step) =>
                    ⟨token, p.line⟩ :: scan fuel (.output (brackets + step)) (p.skip n)
      | .tag brackets =>
          let p := p.skipWhile isGap
          if p.rest.isEmpty then []
          else
            match if brackets = 0 then tagEnd? "%\x7d" p else none with
            | some (margin, next) =>
                ⟨.tagEnd, p.line⟩ :: scan fuel .data (next.afterClosing margin)
            | none =>
                match innerToken p.rest with
                | (.fault f, _, _) => [⟨.fault f, p.line⟩]
                | (token, n, step) =>
                    ⟨token, p.line⟩ :: scan fuel (.tag (brackets + step)) (p.skip n)

/-- The tokens of a template. -/
def tokens (source : String) : List Placed :=
  scan (source.toList.length + 1) .data (.start source)

end Stencil.Template
