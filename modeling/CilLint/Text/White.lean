/-!
# White space

The characters with the `White_Space` property, and the two operations that drop them: `trim` takes
them off both ends of a text, `withoutWhite` removes them everywhere. The zero-width space is not
white space, the ideographic space is.
-/

namespace CilLint.Text

/-- Whether a character is white space. -/
def isWhite (c : Char) : Bool :=
  let n := c.toNat
  (0x09 ≤ n && n ≤ 0x0D) || n == 0x20 || n == 0x85 || n == 0xA0 || n == 0x1680 ||
    (0x2000 ≤ n && n ≤ 0x200A) || n == 0x2028 || n == 0x2029 || n == 0x202F || n == 0x205F ||
    n == 0x3000

/-- A character list without the white space at its two ends. -/
def trimChars (cs : List Char) : List Char :=
  ((cs.dropWhile isWhite).reverse.dropWhile isWhite).reverse

/-- A text without the white space at its two ends. -/
def trim (s : String) : String := String.ofList (trimChars s.toList)

/-- Whether a text has nothing but white space. -/
def isBlank (s : String) : Bool := s.toList.all isWhite

/-- The characters of a text that are not white space, in order. -/
def withoutWhite (s : String) : List Char := s.toList.filter fun c => !isWhite c

end CilLint.Text
