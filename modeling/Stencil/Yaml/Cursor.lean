/-!
# Places in a YAML text

Character classes of YAML, the ways a text can fail to be YAML, and the cursor
that walks over a text and keeps its line and column.
-/

namespace Stencil.Yaml

/-- Why a text is no YAML document. -/
inductive Problem where
  | controlCharacter (c : Char)
  | missingColon
  | keyNotAllowed
  | valueNotAllowed
  | entryNotAllowed
  | unexpectedCharacter (c : Char)
  | badDirective
  | badAnchor
  | badTag
  | badBlockHeader
  | tabInIndentation
  | unexpectedColon
  | markerInQuotes
  | unclosedQuotes
  | badEscape
  | unexpectedToken
  | undefinedTagHandle
  | undefinedAlias (name : String)
  | severalDocuments
  deriving DecidableEq, Repr

/-- A line break character. -/
def isBreak (c : Char) : Bool :=
  c = '\n' || c = '\r' || c.toNat = 0x85 || c.toNat = 0x2028 || c.toNat = 0x2029

/-- A space or a tab. -/
def isSpacing (c : Char) : Bool := c = ' ' || c = '\t'

/-- A letter, digit, dash or underscore. -/
def isWordChar (c : Char) : Bool := c.isAlphanum || c = '-' || c = '_'

/-- Characters that may stand in a text. -/
def isPrintable (c : Char) : Bool :=
  let n := c.toNat
  n == 9 || n == 10 || n == 13 || (0x20 ≤ n && n ≤ 0x7e) || n == 0x85 ||
    (0xa0 ≤ n && n ≤ 0xd7ff) || (0xe000 ≤ n && n ≤ 0xfffd) || 0x10000 ≤ n

/-- A place in a text: what follows it, and where it stands.  The index counts bytes. -/
structure Cursor where
  rest : List Char
  line : Nat
  column : Nat
  index : Nat
  deriving Repr

namespace Cursor

/-- The place before the text. -/
def start (cs : List Char) : Cursor := ⟨cs, 0, 0, 0⟩

/-- The next character. -/
def peek? (c : Cursor) : Option Char := c.rest.head?

/-- The character after the given number of others. -/
def peekAt? (c : Cursor) (n : Nat) : Option Char := c.rest[n]?

/-- Past several characters, on the same line. -/
def skipMany (n : Nat) (c : Cursor) : Cursor :=
  { c with
    rest := c.rest.drop n, column := c.column + n,
    index := (c.rest.take n).foldl (fun i b => i + b.utf8Size) c.index }

/-- Past one character, on the same line. -/
def skip (c : Cursor) : Cursor := c.skipMany 1

/-- Past a line break, with the characters that stand for it. -/
def takeBreak (c : Cursor) : List Char × Cursor :=
  let next (n : Nat) : Cursor := { c.skipMany n with line := c.line + 1, column := 0 }
  match c.rest with
  | '\r' :: '\n' :: _ => (['\n'], next 2)
  | b :: _ =>
      if b.toNat = 0x2028 ∨ b.toNat = 0x2029 then ([b], next 1)
      else if isBreak b then (['\n'], next 1)
      else ([], c)
  | [] => ([], c)

/-- Past all characters of a class. -/
def skipWhile (p : Char → Bool) (c : Cursor) : Cursor :=
  c.skipMany (c.rest.takeWhile p).length

/-- The characters of a class that come next, and the place after them. -/
def takeWhile (p : Char → Bool) (c : Cursor) : List Char × Cursor :=
  (c.rest.takeWhile p, c.skipWhile p)

/-- Whether a character that satisfies the test comes next. -/
def nextIs (p : Char → Bool) (c : Cursor) : Bool := c.peek?.any p

/-- Whether the text ends here, or the given number of characters further on. -/
def endsAt (c : Cursor) (n : Nat) : Bool := (c.peekAt? n).isNone

/-- Whether a line break or the end of the text stands at a distance. -/
def breakOrEndAt (c : Cursor) (n : Nat) : Bool := (c.peekAt? n).all isBreak

/-- Whether a blank, a line break or the end of the text stands at a distance. -/
def gapAt (c : Cursor) (n : Nat) : Bool := (c.peekAt? n).all fun b => isSpacing b || isBreak b

/-- Whether a marker of three dashes or dots stands alone at the start of this line. -/
def atMarker (c : Cursor) : Bool :=
  c.column == 0 && (c.rest.take 3 == ['-', '-', '-'] || c.rest.take 3 == ['.', '.', '.']) &&
    c.gapAt 3

/-- The blanks and line breaks that separate the words of a scalar. -/
structure Gap where
  /-- Blanks before the first line break. -/
  blanks : List Char
  /-- The first line break. -/
  first : List Char
  /-- The line breaks after the first. -/
  further : List Char
  /-- Whether a line break was passed. -/
  broken : Bool

/-- No gap at all. -/
def Gap.none : Gap := ⟨[], [], [], false⟩

/-- The characters that a gap stands for: one line break folds into a space. -/
def Gap.fold (g : Gap) : List Char :=
  if !g.broken then g.blanks
  else if g.first = ['\n'] then
    if g.further.isEmpty then [' '] else g.further
  else g.first ++ g.further

/-- Takes a gap; `tabBelow` is the column below which a tab may not stand on a further line. -/
def takeGap (tabBelow : Nat) : Nat → Gap → Cursor → Except Problem (Gap × Cursor)
  | 0, g, c => .ok (g, c)
  | fuel + 1, g, c =>
      match c.peek? with
      | some b =>
          if isSpacing b then
            if g.broken && c.column < tabBelow && b = '\t' then .error .tabInIndentation
            else
              let g := if g.broken then g else { g with blanks := g.blanks ++ [b] }
              takeGap tabBelow fuel g c.skip
          else if isBreak b then
            let (text, c) := c.takeBreak
            let g :=
              if g.broken then { g with further := g.further ++ text }
              else { g with blanks := [], first := text, broken := true }
            takeGap tabBelow fuel g c
          else .ok (g, c)
      | none => .ok (g, c)

end Cursor

end Stencil.Yaml
