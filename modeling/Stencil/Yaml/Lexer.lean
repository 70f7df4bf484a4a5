import Stencil.Yaml.Scalar
import Stencil.Yaml.Token

/-!
# Cutting a YAML text into tokens

Indentation opens and closes blocks, and a colon may turn out later that a token
already passed was a key.  Such a place is remembered, one for each level of
brackets, and the key token is put in there when the colon comes.
-/

namespace Stencil.Yaml

/-- A token that a later colon on the same line would make a key. -/
structure KeyPlace where
  /-- The number of tokens before it. -/
  position : Nat
  line : Nat
  column : Nat
  index : Nat
  /-- Whether nothing but a key may stand here. -/
  required : Bool

/-- What is known while a text is cut into tokens. -/
structure Lexer where
  cursor : Cursor
  /-- The tokens so far, last first. -/
  tokens : List Token
  /-- The column of the innermost block, -1 outside of all. -/
  indent : Int
  outerIndents : List Int
  /-- The place of a possible key in the block and in each bracket, innermost first. -/
  keys : List (Option KeyPlace)
  keyAllowed : Bool

namespace Lexer

/-- The state before a text. -/
def start (cs : List Char) : Lexer := ⟨.start cs, [], -1, [], [none], true⟩

/-- Whether the place is inside brackets. -/
def inFlow (s : Lexer) : Bool := 1 < s.keys.length

/-- Adds a token. -/
def push (s : Lexer) (t : Token) : Lexer := { s with tokens := t :: s.tokens }

/-- Puts a token in at a position counted from the first. -/
def insertAt (s : Lexer) (position : Nat) (t : Token) : Lexer :=
  let after := s.tokens.length - position
  { s with tokens := s.tokens.take after ++ t :: s.tokens.drop after }

/-- Adds a token for characters that are skipped. -/
def pushSkipping (s : Lexer) (n : Nat) (t : Token) : Lexer :=
  { s.push t with cursor := s.cursor.skipMany n }

/-- Replaces the innermost possible key. -/
def setKey (s : Lexer) (k : Option KeyPlace) : Lexer :=
  { s with keys := k :: s.keys.tail }

/-- Gives up the innermost possible key. -/
def dropKey (s : Lexer) : Except Problem Lexer :=
  match s.keys.head?.join with
  | some k => if k.required then .error .missingColon else .ok (s.setKey none)
  | none => .ok s

/-- Remembers this place as a possible key. -/
def saveKey (s : Lexer) : Except Problem Lexer :=
  if s.keyAllowed then do
    let s ← s.dropKey
    let c := s.cursor
    let required := !s.inFlow && s.indent == (c.column : Int)
    return s.setKey (some ⟨s.tokens.length, c.line, c.column, c.index, required⟩)
  else .ok s

/-- Gives up possible keys that are on an earlier line or too far away. -/
def dropStaleKeys (s : Lexer) : Except Problem Lexer := do
  let keys ← s.keys.mapM fun k =>
    match k with
    | some k =>
        if k.line < s.cursor.line || k.index + 1024 < s.cursor.index then
          if k.required then .error .missingColon else .ok none
        else .ok (some k)
    | none => .ok none
  return { s with keys }

/-- Closes the blocks to the right of a column. -/
def closeBlocks (column : Int) : Nat → Lexer → Lexer
  | 0, s => s
  | fuel + 1, s =>
      if s.inFlow || s.indent ≤ column then s
      else
        closeBlocks column fuel
          { s.push .blockEnd with
            indent := s.outerIndents.head?.getD (-1), outerIndents := s.outerIndents.tail }

/-- Closes the blocks to the right of a column. -/
def closeTo (s : Lexer) (column : Int) : Lexer :=
  closeBlocks column (s.outerIndents.length + 1) s

/-- Opens a block at a column that is to the right of the innermost one. -/
def openBlock (s : Lexer) (column : Nat) (position : Nat) (t : Token) : Lexer :=
  if !s.inFlow && s.indent < (column : Int) then
    { s.insertAt position t with indent := column, outerIndents := s.indent :: s.outerIndents }
  else s

/-- Skips blanks, comments and line breaks before a token. -/
def skipGap : Nat → Lexer → Lexer
  | 0, s => s
  | fuel + 1, s =>
      let c := s.cursor
      let c := if c.column == 0 && c.nextIs (·.toNat = 0xfeff) then c.skip else c
      let c := c.skipWhile fun b => b = ' ' || ((s.inFlow || !s.keyAllowed) && b = '\t')
      let c := if c.nextIs (· = '#') then c.skipWhile (!isBreak ·) else c
      if c.nextIs isBreak then
        skipGap fuel
          { s with cursor := c.takeBreak.2, keyAllowed := s.keyAllowed || !s.inFlow }
      else { s with cursor := c }

/-- Blanks and a comment up to the end of a line. -/
def finishLine (c : Cursor) : Except Problem Cursor :=
  let c := c.skipWhile isSpacing
  let c := if c.nextIs (· = '#') then c.skipWhile (!isBreak ·) else c
  if c.breakOrEndAt 0 then .ok c.takeBreak.2 else .error .badDirective

/-- The numbers of a version directive. -/
def takeVersion (c : Cursor) : Except Problem (Nat × Nat × Cursor) :=
  let (major, c) := (c.skipWhile isSpacing).takeWhile Char.isDigit
  let (minor, c') := c.skip.takeWhile Char.isDigit
  match Decimal.readNat? 10 major, c.peek?, Decimal.readNat? 10 minor with
  | some a, some '.', some b =>
      if major.length < 10 ∧ minor.length < 10 then .ok (a, b, c') else .error .badDirective
  | _, _, _ => .error .badDirective

/-- A tag handle: an exclamation mark, word characters and perhaps another mark. -/
def takeHandle (directive : Bool) (c : Cursor) : Except Problem (List Char × Cursor) :=
  if c.nextIs (· = '!') then
    let (word, c) := c.skip.takeWhile isWordChar
    if c.nextIs (· = '!') then .ok ('!' :: word ++ ['!'], c.skip)
    else if directive && !word.isEmpty then .error .badTag
    else .ok ('!' :: word, c)
  else .error .badTag

/-- Characters of a tag; inside angle brackets commas and brackets too. -/
def isTagChar (verbatim : Bool) (c : Char) : Bool :=
  isWordChar c || ";/?:@&=+$.!~*'()%".toList.contains c ||
    (verbatim && (c = ',' || c = '[' || c = ']'))

/-- The bytes that percent escapes at the start of a text stand for. -/
def takePercents : Nat → List Char → List UInt8
  | 0, _ => []
  | n + 1, '%' :: a :: b :: rest =>
      match Decimal.readNat? 16 [a, b] with
      | some v => UInt8.ofNat v :: takePercents n rest
      | none => []
  | _, _ => []

/-- How many bytes the character has that starts with a byte. -/
def byteWidth (b : UInt8) : Nat :=
  if b < 0x80 then 1 else if 0xc0 ≤ b && b < 0xe0 then 2
  else if 0xe0 ≤ b && b < 0xf0 then 3 else if 0xf0 ≤ b && b < 0xf8 then 4 else 0

/-- The characters of a tag with its percent escapes read. -/
def unescapeTag : Nat → List Char → Except Problem (List Char)
  | 0, _ => .ok []
  | fuel + 1, cs =>
      match cs with
      | [] => .ok []
      | '%' :: rest =>
          match takePercents 1 cs with
          | [b] =>
              let bytes := takePercents (byteWidth b) cs
              match String.fromUTF8? ⟨bytes.toArray⟩ with
              | some s =>
                  if s.isEmpty then .error .badTag
                  else (unescapeTag fuel (rest.drop (3 * bytes.length - 1))).map (s.toList ++ ·)
              | none => .error .badTag
          | _ => .error .badTag
      | c :: rest => (unescapeTag fuel rest).map (c :: ·)

/-- The characters of a tag after what is known of them; there has to be one. -/
def takeTagChars (verbatim : Bool) (known : List Char) (c : Cursor) :
    Except Problem (List Char × Cursor) :=
  let (text, c) := c.takeWhile (isTagChar verbatim)
  match unescapeTag (text.length + 1) text with
  | .error p => .error p
  | .ok chars =>
      if known.isEmpty && chars.isEmpty then .error .badTag else .ok (known ++ chars, c)

/-- A tag as its handle and suffix. -/
def takeTag (s : Lexer) : Except Problem Lexer := do
  let c := s.cursor
  let (handle, suffix, c) ←
    if c.peekAt? 1 = some '<' then do
      let (suffix, c) ← takeTagChars true [] (c.skipMany 2)
      if c.nextIs (· = '>') then pure ([], suffix, c.skip) else .error .badTag
    else do
      let (handle, c) ← takeHandle false c
      if 1 < handle.length && handle.getLast? = some '!' then do
        let (suffix, c) ← takeTagChars false [] c
        pure (handle, suffix, c)
      else do
        let known := handle.tail
        let (suffix, c) :=
          match takeTagChars false known c with
          | .ok r => r
          | .error _ => (known, c)
        if c.nextIs (· = '%') then .error .badTag
        else if suffix.isEmpty then pure ([], ['!'], c)
        else pure (['!'], suffix, c)
  if (s.inFlow && c.nextIs (· = ',')) || c.gapAt 0 then
    return { s.push (.tag (String.ofList handle) (String.ofList suffix)) with cursor := c }
  else .error .badTag

/-- The name of an anchor or alias after its indicator. -/
def takeAnchor (c : Cursor) : Except Problem (String × Cursor) :=
  let (name, c) := c.skip.takeWhile isWordChar
  if !name.isEmpty && (c.gapAt 0 || c.nextIs ("?:,]\x7d%@\x60".toList.contains ·)) then
    .ok (String.ofList name, c)
  else .error .badAnchor

/-- A directive line. -/
def takeDirective (s : Lexer) : Except Problem Lexer := do
  let s ← (s.closeTo (-1)).dropKey
  let (name, c) := s.cursor.skip.takeWhile isWordChar
  if !c.gapAt 0 then throw .badDirective
  let (t, c) ←
    if name = "YAML".toList then do
      let (major, minor, c) ← takeVersion c
      pure (Token.versionDirective major minor, c)
    else if name = "TAG".toList then do
      let (handle, c) ← takeHandle true (c.skipWhile isSpacing)
      if !c.nextIs isSpacing then throw .badDirective
      let (expansion, c) ← takeTagChars true [] (c.skipWhile isSpacing)
      if !c.gapAt 0 then throw .badDirective
      pure (Token.tagDirective (String.ofList handle) (String.ofList expansion), c)
    else throw .badDirective
  let c ← finishLine c
  return { s.push t with cursor := c, keyAllowed := false }

/-- The start of a bracket. -/
def openFlow (s : Lexer) (t : Token) : Except Problem Lexer := do
  let s ← s.saveKey
  return { s.pushSkipping 1 t with keys := none :: s.keys, keyAllowed := true }

/-- The end of a bracket. -/
def closeFlow (s : Lexer) (t : Token) : Except Problem Lexer := do
  let s ← s.dropKey
  return { s.pushSkipping 1 t with
    keys := (if s.inFlow then s.keys.tail else s.keys), keyAllowed := false }

/-- A dash that starts an entry of a block sequence. -/
def takeEntry (s : Lexer) : Except Problem Lexer := do
  if !s.inFlow && !s.keyAllowed then throw .entryNotAllowed
  let s := s.openBlock s.cursor.column s.tokens.length .blockSequenceStart
  let s ← s.dropKey
  return { s.pushSkipping 1 .blockEntry with keyAllowed := true }

/-- A question mark that starts a key. -/
def takeKey (s : Lexer) : Except Problem Lexer := do
  if !s.inFlow && !s.keyAllowed then throw .keyNotAllowed
  let s := s.openBlock s.cursor.column s.tokens.length .blockMappingStart
  let s ← s.dropKey
  return { s.pushSkipping 1 .key with keyAllowed := !s.inFlow }

/-- A colon that starts a value; it makes a key of the token remembered last. -/
def takeValue (s : Lexer) : Except Problem Lexer :=
  match s.keys.head?.join with
  | some k =>
      let s := (s.insertAt k.position .key).openBlock k.column k.position .blockMappingStart
      .ok { (s.setKey none).pushSkipping 1 .value with keyAllowed := false }
  | none =>
      if !s.inFlow && !s.keyAllowed then .error .valueNotAllowed
      else
        let s := s.openBlock s.cursor.column s.tokens.length .blockMappingStart
        .ok { s.pushSkipping 1 .value with keyAllowed := !s.inFlow }

/-- An anchor or alias. -/
def takeAnchored (s : Lexer) (t : String → Token) : Except Problem Lexer := do
  let s ← s.saveKey
  let (name, c) ← takeAnchor s.cursor
  return { s.push (t name) with cursor := c, keyAllowed := false }

/-- A quoted scalar. -/
def takeQuotedToken (s : Lexer) (single : Bool) : Except Problem Lexer := do
  let s ← s.saveKey
  let (text, c) ← takeQuoted single s.cursor
  let style := if single then Style.singleQuoted else Style.doubleQuoted
  return { s.push (.scalar style text) with cursor := c, keyAllowed := false }

/-- A block scalar. -/
def takeBlockToken (s : Lexer) (literal : Bool) : Except Problem Lexer := do
  let s ← s.dropKey
  let (text, c) ← takeBlock literal s.indent s.cursor
  let style := if literal then Style.literal else Style.folded
  return { s.push (.scalar style text) with cursor := c, keyAllowed := true }

/-- A plain scalar. -/
def takePlainToken (s : Lexer) : Except Problem Lexer := do
  let s ← s.saveKey
  let (text, broken, c) ← takePlain s.inFlow (s.indent + 1).toNat s.cursor
  return { s.push (.scalar .plain text) with cursor := c, keyAllowed := broken }

/-- Characters that start no plain scalar, unless a dash, question mark or colon is followed by
something. -/
def isIndicator (c : Char) : Bool := "-?:,[]\x7b\x7d#&*!|>'\"%@\x60".toList.contains c

/-- The token at the cursor, which stands before its first character. -/
def takeToken (s : Lexer) (b : Char) : Except Problem Lexer :=
  let c := s.cursor
  if c.column = 0 && b = '%' then s.takeDirective
  else if c.atMarker then do
    let s ← (s.closeTo (-1)).dropKey
    return { s.pushSkipping 3 (if b = '-' then .documentStart else .documentEnd) with
      keyAllowed := false }
  else if b = '[' then s.openFlow .flowSequenceStart
  else if b = '{' then s.openFlow .flowMappingStart
  else if b = ']' then s.closeFlow .flowSequenceEnd
  else if b = '}' then s.closeFlow .flowMappingEnd
  else if b = ',' then do
    let s ← s.dropKey
    return { s.pushSkipping 1 .flowEntry with keyAllowed := true }
  else if b = '-' && c.gapAt 1 then s.takeEntry
  else if b = '?' && (s.inFlow || c.gapAt 1) then s.takeKey
  else if b = ':' && (s.inFlow || c.gapAt 1) then s.takeValue
  else if b = '*' then s.takeAnchored .alias
  else if b = '&' then s.takeAnchored .anchor
  else if b = '!' then do
    let s ← s.saveKey
    takeTag { s with keyAllowed := false }
  else if b = '|' && !s.inFlow then s.takeBlockToken true
  else if b = '>' && !s.inFlow then s.takeBlockToken false
  else if b = '\'' then s.takeQuotedToken true
  else if b = '"' then s.takeQuotedToken false
  else if !(isSpacing b || isBreak b || isIndicator b) || b = '-' ||
      (!s.inFlow && (b = '?' || b = ':')) then
    s.takePlainToken
  else .error (.unexpectedCharacter b)

/-- The tokens up to the end of the text. -/
def run : Nat → Lexer → Except Problem Lexer
  | 0, s => .ok s
  | fuel + 1, s => do
      let s := skipGap (s.cursor.rest.length + 1) s
      let s ← s.dropStaleKeys
      let s := s.closeTo s.cursor.column
      match s.cursor.peek? with
      | none => (s.closeTo (-1)).dropKey
      | some b => do
          let s ← s.takeToken b
          run fuel s

end Lexer

/-- The tokens of a text. -/
def tokens (text : String) : Except Problem (List Token) :=
  let cs := text.toList
  let cs := if cs.head?.any (·.toNat = 0xfeff) then cs.tail else cs
  match cs.find? (!isPrintable ·) with
  | some c => .error (.controlCharacter c)
  | none => (Lexer.run (2 * cs.length + 2) (.start cs)).map (·.tokens.reverse)

end Stencil.Yaml
