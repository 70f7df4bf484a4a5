import Stencil.Decimal.Fixed
import Stencil.Template.Arguments

/-!
# Texts with placeholders

A text is read as pieces: characters, and placeholders such as `%5.2f` that stand
for arguments.  The pieces are filled in order; a placeholder with a name takes
the argument of that name, every other one takes the next argument.
-/

namespace Stencil.Template

/-- A number of a placeholder that is written in it or taken from the arguments. -/
inductive Amount where
  | written (n : Nat)
  | taken
  deriving DecidableEq, Repr

/-- A place for an argument in a text. -/
structure Placeholder where
  /-- Where it stands in the text, behind its percent sign. -/
  offset : Nat
  key : Option String
  flags : List Char
  width : Option Amount
  precision : Option Amount
  form : Char
  deriving DecidableEq, Repr

/-- A piece of a text with placeholders. -/
inductive Piece where
  | plain (c : Char)
  | place (p : Placeholder)
  deriving DecidableEq, Repr

namespace Placeholder

/-- The forms that a placeholder can have. -/
def forms : List Char :=
  ['d', 'i', 'u', 'o', 'x', 'X', 'e', 'E', 'f', 'F', 'g', 'G', 'c', 's', 'r', 'a']

/-- A name in parentheses, if there is one, and what follows. -/
def readKey : List Char → Option String × List Char
  | '(' :: rest =>
      match Text.cutFirstList ')' rest with
      | some (key, rest) => (some (String.ofList key), rest)
      | none => (none, '(' :: rest)
  | cs => (none, cs)

/-- A number, if there is one, and what follows. -/
def readAmount : List Char → Option Amount × List Char
  | '*' :: rest => (some .taken, rest)
  | cs =>
      let digits := cs.takeWhile Char.isDigit
      ((Decimal.readNat? 10 digits).map .written, cs.drop digits.length)

/-- A precision after a point; without digits it is zero. -/
def readPrecision : List Char → Option Amount × List Char
  | '.' :: rest =>
      let (amount, rest) := readAmount rest
      (some (amount.getD (.written 0)), rest)
  | cs => (none, cs)

/-- A placeholder from behind its percent sign, and what follows. -/
def read? (offset : Nat) (cs : List Char) : Option (Placeholder × List Char) :=
  let (key, cs) := readKey cs
  let flags := cs.takeWhile ['-', '+', ' ', '0', '#'].contains
  let (width, cs) := readAmount (cs.drop flags.length)
  let (precision, cs) := readPrecision cs
  match cs.dropWhile ['h', 'l', 'L'].contains with
  | form :: rest =>
      if forms.contains form then some (⟨offset, key, flags, width, precision, form⟩, rest)
      else none
  | [] => none

/-- Whether a placeholder has a flag. -/
def has (p : Placeholder) (flag : Char) : Bool := p.flags.contains flag

/-- The problem of a placeholder at its place. -/
def fault (p : Placeholder) (what : String) : Problem :=
  .filterArgument (what ++ " for format spec at offset '" ++ toString p.offset ++ "'")

/-- A text filled up with spaces to a width. -/
def fill (p : Placeholder) (width : Nat) (body : List Char) : List Char :=
  let spaces := List.replicate (width - body.length) ' '
  if p.has '-' then body ++ spaces else spaces ++ body

/-- A number filled up to a width, with its sign and the mark of its base in front. -/
def fillNumber (p : Placeholder) (width : Nat) (negative : Bool) (mark body : List Char) :
    List Char :=
  let sign : List Char :=
    if negative then ['-'] else if p.has '+' then ['+'] else if p.has ' ' then [' '] else []
  let lead := sign ++ mark
  if p.has '0' && !p.has '-' then
    lead ++ List.replicate (width - lead.length - body.length) '0' ++ body
  else p.fill width (lead ++ body)

/-- A whole number in the base of a form. -/
def wholeText (p : Placeholder) (width : Nat) (precision : Option Nat) (n : Int) : List Char :=
  let (base, mark) : Nat × List Char :=
    if p.form = 'o' then (8, ['0', 'o'])
    else if p.form = 'x' then (16, ['0', 'x'])
    else if p.form = 'X' then (16, ['0', 'X'])
    else (10, [])
  let digits := Nat.toDigits base n.natAbs
  let digits := List.replicate (precision.getD 1 - digits.length) '0' ++ digits
  let digits := if p.form = 'X' then digits.map Char.toUpper else digits
  p.fillNumber width (n < 0) (if p.has '#' then mark else []) digits

/-- A double in the notation of a form. -/
def doubleText (p : Placeholder) (width : Nat) (precision : Option Nat) (d : Double) :
    List Char :=
  let places := precision.getD 6
  let body :=
    if d.isNaN then "nan".toList
    else if !d.isFinite then "inf".toList
    else
      match p.form.toLower with
      | 'e' => Layout.writePower places d
      | 'g' => Layout.writeDigits places (p.has '#') d
      | _ => Layout.writePlaces places d
  let body := if p.form.isUpper then body.map Char.toUpper else body
  p.fillNumber width (d.isNegative && !d.isNaN) [] body

/-- The text of an argument in place of a placeholder. -/
def textOf (w : World) (p : Placeholder) (width : Nat) (precision : Option Nat) (v : Value) :
    Except Problem (List Char) :=
  let whole (use : Int → List Char) : Except Problem (List Char) :=
    match v with
    | .float d =>
        if d.isFinite then .ok (use d.truncate) else .error (p.fault "expected an integer")
    | .int n => .ok (use n)
    | v =>
        match v.whole? with
        | some n => .ok (use n)
        | none => .error (p.fault "expected an integer")
  if ['s', 'r', 'a'].contains p.form then
    let s := (if p.form = 's' then w.text v else w.inner v).toList
    .ok (p.fill width (match precision with | some n => s.take n | none => s))
  else if p.form = 'c' then
    match v with
    | .text s _ => .ok (p.fill width (s.toList.take 1))
    | _ => whole fun n => p.fill width [Char.ofNat n.toNat]
  else if ['e', 'f', 'g'].contains p.form.toLower then
    match v.double? with
    | some d => .ok (p.doubleText width precision d)
    | none => .error (p.fault "expected a number")
  else whole (p.wholeText width precision)

end Placeholder

namespace Piece

/-- The pieces of a text from an offset on; a percent sign that starts no placeholder is missing
one. -/
def read : Nat → Nat → List Char → Except Problem (List Piece)
  | 0, _, _ => .ok []
  | _ + 1, _, [] => .ok []
  | fuel + 1, offset, '%' :: '%' :: rest => do
      pure (.plain '%' :: (← read fuel (offset + 2) rest))
  | fuel + 1, offset, '%' :: rest => do
      match Placeholder.read? (offset + 1) rest with
      | some (p, after) =>
          let taken := String.ofList (rest.take (rest.length - after.length))
          pure (.place p :: (← read fuel (offset + 1 + taken.utf8ByteSize) after))
      | none =>
          throw (.filterArgument
            ("invalid format spec at offset '" ++ toString (offset + 1) ++ "'"))
  | fuel + 1, offset, c :: rest => do
      pure (.plain c :: (← read fuel (offset + c.utf8Size) rest))

/-- The next argument and those behind it. -/
def take (p : Placeholder) : List Value → Except Problem (Value × List Value)
  | v :: rest => .ok (v, rest)
  | [] => .error (p.fault "missing an argument")

/-- A number of a placeholder and the arguments behind it. -/
def amount (p : Placeholder) (values : List Value) :
    Option Amount → Except Problem (Option Nat × List Value)
  | none => .ok (none, values)
  | some (.written n) => .ok (some n, values)
  | some .taken => do
      let (v, rest) ← take p values
      pure (some (← countOf v), rest)

/-- The text of pieces whose placeholders stand for arguments. -/
def fillAll (w : World) (named : List (String × Value)) :
    List Value → List Piece → Except Problem (List Char)
  | _, [] => .ok []
  | values, .plain c :: rest => do pure (c :: (← fillAll w named values rest))
  | values, .place p :: rest => do
      let (width, values) ← amount p values p.width
      let (precision, values) ← amount p values p.precision
      let (v, values) ←
        match p.key with
        | none => take p values
        | some key =>
            match named.lookup key with
            | some v => pure (v, values)
            | none => throw (p.fault "missing an argument")
      let shown ← p.textOf w (width.getD 0) precision v
      pure (shown ++ (← fillAll w named values rest))

end Piece

/-- A text with its placeholders filled. -/
def formatted (w : World) (s : String) (as : Arguments) : Except Problem String := do
  let pieces ← Piece.read (s.toList.length + 1) 0 s.toList
  pure (String.ofList (← Piece.fillAll w as.names as.flat pieces))

end Stencil.Template
