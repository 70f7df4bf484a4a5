import Stencil.Json.Value
import Stencil.Decimal.Read

/-!
# Reading JSON text

A reader for JSON text that keeps the order of members and the spelling of
numbers: digits alone that fit 64 bits are whole numbers, all others doubles.
A key that comes again replaces the value in its first place.
-/

namespace Stencil.Json.Reader

-- powers of numbers are those of the core library
attribute [local instance (2000)] instPowNat

/-- Characters between the tokens of JSON text. -/
def isSpace (c : Char) : Bool := c = ' ' || c = '\t' || c = '\n' || c = '\r'

/-- The text from its next token on. -/
def skip (cs : List Char) : List Char := cs.dropWhile isSpace

/-- The value of four hexadecimal digits and what follows them. -/
def unit? : List Char → Option (Nat × List Char)
  | a :: b :: c :: d :: rest => (Decimal.readNat? 16 [a, b, c, d]).map (·, rest)
  | _ => none

/-- The character of an escape that has one letter. -/
def shortEscape? (c : Char) : Option Char :=
  if c = '"' ∨ c = '\\' ∨ c = '/' then some c
  else if c = 'b' then some (Char.ofNat 8)
  else if c = 'f' then some (Char.ofNat 12)
  else if c = 'n' then some '\n'
  else if c = 'r' then some '\r'
  else if c = 't' then some '\t'
  else none

/-- The character of a `\u` escape, two of them for a surrogate pair. -/
def longEscape? (cs : List Char) : Option (Char × List Char) :=
  match unit? cs with
  | none => none
  | some (high, rest) =>
      if 0xd800 ≤ high ∧ high < 0xdc00 then
        match rest with
        | '\\' :: 'u' :: rest =>
            match unit? rest with
            | some (low, rest) =>
                if 0xdc00 ≤ low ∧ low < 0xe000 then
                  some (Char.ofNat (0x10000 + (high - 0xd800) * 1024 + (low - 0xdc00)), rest)
                else none
            | none => none
        | _ => none
      else if 0xdc00 ≤ high ∧ high < 0xe000 then none
      else some (Char.ofNat high, rest)

/-- A string after its opening quote, with the characters read so far reversed. -/
def string? : Nat → List Char → List Char → Option (String × List Char)
  | 0, _, _ => none
  | fuel + 1, acc, cs =>
      match cs with
      | [] => none
      | '"' :: rest => some (String.ofList acc.reverse, rest)
      | '\\' :: 'u' :: rest =>
          match longEscape? rest with
          | some (c, rest) => string? fuel (c :: acc) rest
          | none => none
      | '\\' :: e :: rest =>
          match shortEscape? e with
          | some c => string? fuel (c :: acc) rest
          | none => none
      | c :: rest => if c.toNat < 32 then none else string? fuel (c :: acc) rest

/-- Characters of which numbers are made. -/
def isNumberChar (c : Char) : Bool :=
  c.isDigit || c = '-' || c = '+' || c = '.' || c = 'e' || c = 'E'

/-- The number that a text spells. -/
def number? (cs : List Char) : Option Json :=
  let whole := cs.all fun c => c.isDigit || c = '-'
  match (if whole then Decimal.readInt? 10 cs else none) with
  | some n =>
      if cs = ['-', '0'] then some (.double (.ofDecimal true 0 0))
      else if -(2 ^ (63 : Nat)) ≤ n ∧ n < 2 ^ (64 : Nat) then some (.int n)
      else some (.double (.ofInt n))
  | none => (Decimal.readDouble? cs).map .double

mutual
/-- A value at the start of a text. -/
def value? : Nat → List Char → Option (Json × List Char)
  | 0, _ => none
  | fuel + 1, cs =>
      match skip cs with
      | 'n' :: 'u' :: 'l' :: 'l' :: rest => some (.null, rest)
      | 't' :: 'r' :: 'u' :: 'e' :: rest => some (.bool true, rest)
      | 'f' :: 'a' :: 'l' :: 's' :: 'e' :: rest => some (.bool false, rest)
      | '"' :: rest => (string? (rest.length + 1) [] rest).map fun (s, rest) => (.string s, rest)
      | '[' :: rest =>
          match skip rest with
          | ']' :: rest => some (.array [], rest)
          | rest => (items? fuel [] rest).map fun (xs, rest) => (.array xs, rest)
      | '{' :: rest =>
          match skip rest with
          | '}' :: rest => some (.object [], rest)
          | rest => (members? fuel [] rest).map fun (ms, rest) => (.object ms, rest)
      | rest =>
          (number? (rest.takeWhile isNumberChar)).map fun n => (n, rest.dropWhile isNumberChar)

/-- The items of an array up to its end. -/
def items? : Nat → List Json → List Char → Option (List Json × List Char)
  | 0, _, _ => none
  | fuel + 1, acc, cs =>
      match value? fuel cs with
      | none => none
      | some (v, rest) =>
          match skip rest with
          | ',' :: rest => items? fuel (v :: acc) rest
          | ']' :: rest => some ((v :: acc).reverse, rest)
          | _ => none

/-- The members of an object up to its end. -/
def members? : Nat → Members → List Char → Option (Members × List Char)
  | 0, _, _ => none
  | fuel + 1, acc, cs =>
      match skip cs with
      | '"' :: rest =>
          match string? (rest.length + 1) [] rest with
          | none => none
          | some (k, rest) =>
              match skip rest with
              | ':' :: rest =>
                  match value? fuel rest with
                  | none => none
                  | some (v, rest) =>
                      match skip rest with
                      | ',' :: rest => members? fuel (Members.set k v acc) rest
                      | '}' :: rest => some (Members.set k v acc, rest)
                      | _ => none
              | _ => none
      | _ => none
end

end Stencil.Json.Reader

namespace Stencil.Json

/-- The value that a JSON text holds. -/
def read? (s : String) : Option Json :=
  let cs := s.toList
  match Reader.value? (cs.length + 1) cs with
  | some (v, rest) => if (Reader.skip rest).isEmpty then some v else none
  | none => none

end Stencil.Json
