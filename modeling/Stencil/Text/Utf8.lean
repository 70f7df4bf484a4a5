/-!
# Bytes read as text

Bytes are read as text even where they are no UTF-8.  A part of them that is no
character, as far as it could have been the beginning of one, is read as the
replacement character.
-/

namespace Stencil.Text

/-- The bytes of a text. -/
def utf8 (s : String) : List UInt8 := s.toUTF8.data.toList

/-- What follows the first byte of a character of several bytes: the bounds of the second byte and
the number of bytes after that one. -/
def tail? (first : UInt8) : Option (UInt8 × UInt8 × Nat) :=
  if 0xC2 ≤ first ∧ first ≤ 0xDF then some (0x80, 0xBF, 0)
  -- a smaller second byte would spell a character that has a shorter spelling
  else if first = 0xE0 then some (0xA0, 0xBF, 1)
  -- a greater one would spell a surrogate
  else if first = 0xED then some (0x80, 0x9F, 1)
  else if 0xE1 ≤ first ∧ first ≤ 0xEF then some (0x80, 0xBF, 1)
  else if first = 0xF0 then some (0x90, 0xBF, 2)
  else if 0xF1 ≤ first ∧ first ≤ 0xF3 then some (0x80, 0xBF, 2)
  else if first = 0xF4 then some (0x80, 0x8F, 2)
  else none

/-- How many bytes after the first one can belong to a character that begins with it. -/
def begun : List UInt8 → Nat
  | first :: second :: rest =>
      match tail? first with
      | some (low, high, more) =>
          if low ≤ second ∧ second ≤ high then
            1 + ((rest.take more).takeWhile fun b => 0x80 ≤ b && b ≤ 0xBF).length
          else 0
      | none => 0
  | _ => 0

/-- The characters that bytes spell, with nothing in the place of each part that is no character.
The number counts bytes at the start that belong to what was read before. -/
def decode : Nat → List UInt8 → List (Option Char)
  | _, [] => []
  | n + 1, _ :: rest => decode n rest
  | 0, b :: rest =>
      match (b :: rest).toByteArray.utf8DecodeChar? 0 with
      | some c => some c :: decode (c.utf8Size - 1) rest
      | none => none :: decode (begun (b :: rest)) rest

/-- The character that stands for what is no character. -/
def replacement : Char := '\uFFFD'

/-- Bytes as a text. -/
def ofBytes (bytes : List UInt8) : String :=
  String.ofList ((decode 0 bytes).map (·.getD replacement))

end Stencil.Text
