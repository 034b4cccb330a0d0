/-!
# White space

Three classes of blank characters, from narrow to wide, and trimming by a class.

* `isBlank`: the space and the tab, the only characters of an indentation.
* `isWhite`: the characters with the white-space property.
* `isSpace`: those and the four information separators U+001C to U+001F.
* `trimStart`, `trimEnd`, `trim`: a text without the spaces at its ends.
-/

namespace TapeLang.Text

/-- A space or a tab. -/
def isBlank (c : Char) : Bool := c == ' ' || c == '\t'

/-- A character with the white-space property. -/
def isWhite (c : Char) : Bool :=
  let n := c.toNat
  (0x09 ≤ n && n ≤ 0x0D) || n == 0x20 || n == 0x85 || n == 0xA0 || n == 0x1680 ||
    (0x2000 ≤ n && n ≤ 0x200A) || n == 0x2028 || n == 0x2029 || n == 0x202F || n == 0x205F ||
    n == 0x3000

/-- A white-space character or one of the information separators U+001C to U+001F. -/
def isSpace (c : Char) : Bool := isWhite c || (0x1C ≤ c.toNat && c.toNat ≤ 0x1F)

/-- The text without the characters of class `p` at its end. -/
def dropWhileEnd (p : Char → Bool) (s : List Char) : List Char :=
  (s.reverse.dropWhile p).reverse

/-- The text without the characters of class `p` at either end. -/
def dropEnds (p : Char → Bool) (s : List Char) : List Char :=
  dropWhileEnd p (s.dropWhile p)

/-- The text without leading spaces. -/
def trimStart (s : List Char) : List Char := s.dropWhile isSpace

/-- The text without trailing spaces. -/
def trimEnd (s : List Char) : List Char := dropWhileEnd isSpace s

/-- The text without leading and trailing spaces. -/
def trim (s : List Char) : List Char := dropEnds isSpace s

end TapeLang.Text
