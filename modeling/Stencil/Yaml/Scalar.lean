import Stencil.Yaml.Cursor
import Stencil.Decimal.Read

/-!
# Scalars in a YAML text

Quoted, plain and block scalars.  Each reader starts at the first character of
the scalar and gives its text and the place after it.
-/

namespace Stencil.Yaml

/-- The characters of the escapes that have one letter. -/
def escapes : List (Char × Nat) :=
  [('0', 0), ('a', 7), ('b', 8), ('t', 9), ('\t', 9), ('n', 10), ('v', 11), ('f', 12),
    ('r', 13), ('e', 27), (' ', 32), ('"', 34), ('/', 47), ('\\', 92), ('N', 0x85),
    ('_', 0xa0), ('L', 0x2028), ('P', 0x2029)]

/-- How many hexadecimal digits follow the letter of an escape. -/
def escapeWidth? (c : Char) : Option Nat :=
  if c = 'x' then some 2 else if c = 'u' then some 4 else if c = 'U' then some 8 else none

/-- The character of an escape after the backslash. -/
def takeEscape (c : Cursor) : Except Problem (Char × Cursor) :=
  match c.peek? with
  | none => .error .badEscape
  | some letter =>
      match escapes.lookup letter with
      | some code => .ok (Char.ofNat code, c.skip)
      | none =>
          match escapeWidth? letter with
          | none => .error .badEscape
          | some width =>
              let digits := c.skip.rest.take width
              match Decimal.readNat? 16 digits with
              | none => .error .badEscape
              | some code =>
                  if digits.length < width ∨ (0xd800 ≤ code ∧ code < 0xe000) ∨ 0x10ffff < code then
                    .error .badEscape
                  else .ok (Char.ofNat code, c.skip.skipMany width)

/-- What ends a run of characters without blanks in a quoted scalar. -/
inductive RunEnd where
  | gap
  | brokenLine
  | quote

/-- A run of characters of a quoted scalar, put in front of the reversed text. -/
def takeQuotedRun (single : Bool) :
    Nat → List Char → Cursor → Except Problem (List Char × RunEnd × Cursor)
  | 0, acc, c => .ok (acc, .gap, c)
  | fuel + 1, acc, c =>
      if c.gapAt 0 then .ok (acc, .gap, c)
      else
        match c.rest with
        | [] => .ok (acc, .gap, c)
        | '\'' :: next =>
            if !single then takeQuotedRun single fuel ('\'' :: acc) c.skip
            else if next.head? = some '\'' then
              takeQuotedRun single fuel ('\'' :: acc) (c.skipMany 2)
            else .ok (acc, .quote, c)
        | '"' :: _ =>
            if single then takeQuotedRun single fuel ('"' :: acc) c.skip
            else .ok (acc, .quote, c)
        | '\\' :: next =>
            if single then takeQuotedRun single fuel ('\\' :: acc) c.skip
            else if next.head?.any isBreak then .ok (acc, .brokenLine, c.skip.takeBreak.2)
            else
              match takeEscape c.skip with
              | .ok (e, c) => takeQuotedRun single fuel (e :: acc) c
              | .error p => .error p
        | b :: _ => takeQuotedRun single fuel (b :: acc) c.skip

/-- The lines of a quoted scalar after its opening quote. -/
def takeQuotedLines (single : Bool) :
    Nat → List Char → Cursor → Except Problem (String × Cursor)
  | 0, _, _ => .error .unclosedQuotes
  | fuel + 1, acc, c =>
      if c.atMarker then .error .markerInQuotes
      else if c.endsAt 0 then .error .unclosedQuotes
      else
        match takeQuotedRun single (c.rest.length + 1) acc c with
        | .error p => .error p
        | .ok (acc, .quote, c) => .ok (String.ofList acc.reverse, c.skip)
        | .ok (acc, ending, c) =>
            let open_ : Cursor.Gap :=
              match ending with
              | .brokenLine => { Cursor.Gap.none with broken := true }
              | _ => Cursor.Gap.none
            match Cursor.takeGap 0 (c.rest.length + 1) open_ c with
            | .error p => .error p
            | .ok (g, c) => takeQuotedLines single fuel (g.fold.reverse ++ acc) c

/-- A quoted scalar. -/
def takeQuoted (single : Bool) (c : Cursor) : Except Problem (String × Cursor) :=
  takeQuotedLines single (c.rest.length + 1) [] c.skip

/-- Whether a character ends a plain scalar inside brackets. -/
def isFlowIndicator (c : Char) : Bool :=
  c = ',' || c = '[' || c = ']' || c = '{' || c = '}'

/-- A run of characters of a plain scalar, put in front of the reversed text.  The gap before
the run belongs to the text only when the run is not empty. -/
def takePlainRun (inFlow : Bool) :
    Nat → Cursor.Gap → List Char → Cursor → Except Problem (List Char × Cursor)
  | 0, _, acc, c => .ok (acc, c)
  | fuel + 1, g, acc, c =>
      match c.peek? with
      | none => .ok (acc, c)
      | some b =>
          if c.gapAt 0 then .ok (acc, c)
          else if inFlow && b = ':' && (c.peekAt? 1).any (fun n => isFlowIndicator n || n = '?') then
            .error .unexpectedColon
          else if (b = ':' && c.gapAt 1) || (inFlow && isFlowIndicator b) then .ok (acc, c)
          else takePlainRun inFlow fuel Cursor.Gap.none (b :: (g.fold.reverse ++ acc)) c.skip

/-- The lines of a plain scalar; the flag tells whether it ends after a line break. -/
def takePlainLines (inFlow : Bool) (indent : Nat) :
    Nat → Cursor.Gap → List Char → Cursor → Except Problem (String × Bool × Cursor)
  | 0, g, acc, c => .ok (String.ofList acc.reverse, g.broken, c)
  | fuel + 1, g, acc, c =>
      if c.atMarker || c.nextIs (· = '#') then .ok (String.ofList acc.reverse, g.broken, c)
      else
        match takePlainRun inFlow (c.rest.length + 1) g acc c with
        | .error p => .error p
        | .ok (acc', c') =>
            let g := if c'.index = c.index then g else Cursor.Gap.none
            if c'.nextIs (fun b => isSpacing b || isBreak b) then
              match Cursor.takeGap indent (c'.rest.length + 1) g c' with
              | .error p => .error p
              | .ok (g, c) =>
                  if !inFlow && c.column < indent then
                    .ok (String.ofList acc'.reverse, g.broken, c)
                  else takePlainLines inFlow indent fuel g acc' c
            else .ok (String.ofList acc'.reverse, g.broken, c')

/-- A plain scalar that continues on lines indented at least as far as `indent`. -/
def takePlain (inFlow : Bool) (indent : Nat) (c : Cursor) :
    Except Problem (String × Bool × Cursor) :=
  takePlainLines inFlow indent (c.rest.length + 1) Cursor.Gap.none [] c

/-- What happens to the line breaks at the end of a block scalar. -/
inductive Chomping where
  | strip
  | clip
  | keep
  deriving DecidableEq, Repr

/-- The indentation lines and breaks before a line of a block scalar.  Gives the breaks, the
greatest column seen, and the place at the first character of the line. -/
def takeBlockBreaks (indent : Option Nat) :
    Nat → List Char → Nat → Cursor → Except Problem (List Char × Nat × Cursor)
  | 0, breaks, deepest, c => .ok (breaks, deepest, c)
  | fuel + 1, breaks, deepest, c =>
      let spaces := (c.rest.takeWhile (· = ' ')).length
      let c := c.skipMany (match indent with | none => spaces | some i => min spaces (i - c.column))
      let deepest := max deepest c.column
      if indent.all (c.column < ·) && c.nextIs (· = '\t') then .error .tabInIndentation
      else if c.nextIs isBreak then
        let (text, c) := c.takeBreak
        takeBlockBreaks indent fuel (breaks ++ text) deepest c
      else .ok (breaks, deepest, c)

/-- The header of a block scalar after its indicator: chomping and indentation, in any order. -/
def takeBlockHeader (c : Cursor) : Except Problem (Chomping × Option Nat × Cursor) :=
  let chomping (c : Cursor) : Option Chomping :=
    match c.peek? with
    | some '+' => some .keep
    | some '-' => some .strip
    | _ => none
  let digit (c : Cursor) : Option Nat :=
    match c.peek? with
    | some b => if b.isDigit then some (b.toNat - '0'.toNat) else none
    | none => none
  let (chomp, width, c) : Chomping × Option Nat × Cursor :=
    match chomping c, digit c with
    | some k, _ =>
        match digit c.skip with
        | some d => (k, some d, c.skipMany 2)
        | none => (k, none, c.skip)
    | none, some d =>
        match chomping c.skip with
        | some k => (k, some d, c.skipMany 2)
        | none => (.clip, some d, c.skip)
    | none, none => (.clip, none, c)
  let c := c.skipWhile isSpacing
  let c := if c.nextIs (· = '#') then c.skipWhile (!isBreak ·) else c
  if width = some 0 ∨ !c.breakOrEndAt 0 then .error .badBlockHeader
  else .ok (chomp, width, c.takeBreak.2)

/-- The lines of a block scalar, with the breaks since the last line at hand. -/
def takeBlockLines (literal : Bool) (indent : Nat) :
    Nat → (acc first further : List Char) → Bool → Cursor →
      Except Problem (List Char × List Char × List Char × Cursor)
  | 0, acc, first, further, _, c => .ok (acc, first, further, c)
  | fuel + 1, acc, first, further, afterBlank, c =>
      if c.column = indent && !c.endsAt 0 then
        let blank := c.nextIs isSpacing
        let joint :=
          if !literal && first = ['\n'] && !afterBlank && !blank then
            if further.isEmpty then [' '] else further
          else first ++ further
        let (text, c) := c.takeWhile (!isBreak ·)
        let (first, c) := c.takeBreak
        match takeBlockBreaks (some indent) (c.rest.length + 1) [] 0 c with
        | .error p => .error p
        | .ok (further, _, c) =>
            takeBlockLines literal indent fuel (acc ++ joint ++ text) first further blank c
      else .ok (acc, first, further, c)

/-- A block scalar inside a block of the given indentation. -/
def takeBlock (literal : Bool) (outer : Int) (c : Cursor) : Except Problem (String × Cursor) :=
  match takeBlockHeader c.skip with
  | .error p => .error p
  | .ok (chomp, width, c) =>
      let given := width.map fun w => if 0 ≤ outer then outer.toNat + w else w
      match takeBlockBreaks given (c.rest.length + 1) [] 0 c with
      | .error p => .error p
      | .ok (breaks, deepest, c) =>
          let indent := given.getD (max (max deepest (outer + 1).toNat) 1)
          match takeBlockLines literal indent (c.rest.length + 1) [] [] breaks false c with
          | .error p => .error p
          | .ok (acc, first, further, c) =>
              let tail :=
                match chomp with
                | .strip => []
                | .clip => first
                | .keep => first ++ further
              .ok (String.ofList (acc ++ tail), c)

end Stencil.Yaml
