/-!
# White space and trimming

The characters that count as white space, and the text without them at its ends.
-/

namespace Stencil.Text

/-- Characters with the white space property. -/
def isBlank (c : Char) : Bool :=
  let n := c.toNat
  (9 ≤ n && n ≤ 13) || n == 0x20 || n == 0x85 || n == 0xa0 || n == 0x1680 ||
    (0x2000 ≤ n && n ≤ 0x200a) || n == 0x2028 || n == 0x2029 || n == 0x202f ||
    n == 0x205f || n == 0x3000

/-- Characters with those of a class removed from both ends. -/
def trimList (p : Char → Bool) (cs : List Char) : List Char :=
  ((cs.dropWhile p).reverse.dropWhile p).reverse

/-- The text without white space at its ends. -/
def trim (s : String) : String :=
  String.ofList (trimList isBlank s.toList)

/-- Whether the text has no character but white space. -/
def isBlankText (s : String) : Bool :=
  s.toList.all isBlank

end Stencil.Text
