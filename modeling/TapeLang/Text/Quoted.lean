import TapeLang.Text.Word

/-!
# Quoted texts

A quoted text is shown between single quotes, or between double quotes if it holds a single quote
and no double quote. Inside, the quote in use and the backslash are escaped by a backslash, line
feed, carriage return and tab by a letter, and every other character that is not printable by its
code point in hexadecimal.

* `quoted`: the quoted form of a text.
* `quotedList`, `quotedTuple`: lists of quoted texts in square brackets and in parentheses.
-/

namespace TapeLang.Text

/-- The last `width` hexadecimal digits of a number, in lower case. -/
def hexDigits (width n : Nat) : List Char :=
  (List.range width).reverse.map fun i => Nat.digitChar ((n >>> (4 * i)) % 16)

/-- The quote that encloses a text. -/
def quoteMark (s : List Char) : Char :=
  if s.contains '\'' && !s.contains '"' then '"' else '\''

/-- A character as it stands between the quotes `q`. -/
def quotedChar (q c : Char) : List Char :=
  if c == q || c == '\\' then ['\\', c]
  else if c == '\n' then ['\\', 'n']
  else if c == '\r' then ['\\', 'r']
  else if c == '\t' then ['\\', 't']
  else if isPrintable c then [c]
  else if c.toNat < 0x100 then '\\' :: 'x' :: hexDigits 2 c.toNat
  else if c.toNat < 0x10000 then '\\' :: 'u' :: hexDigits 4 c.toNat
  else '\\' :: 'U' :: hexDigits 8 c.toNat

/-- The quoted form of a list of characters. -/
def quotedChars (s : List Char) : List Char :=
  quoteMark s :: (s.flatMap (quotedChar (quoteMark s)) ++ [quoteMark s])

/-- The quoted form of a text. -/
def quoted (s : String) : String := String.ofList (quotedChars s.toList)

/-- Quoted texts, separated by commas. -/
def quotedItems (xs : List String) : String := ", ".intercalate (xs.map quoted)

/-- A list of quoted texts in square brackets. -/
def quotedList (xs : List String) : String := "[" ++ quotedItems xs ++ "]"

/-- A list of quoted texts in parentheses; a comma follows a single one. -/
def quotedTuple : List String → String
  | [x] => "(" ++ quoted x ++ ",)"
  | xs => "(" ++ quotedItems xs ++ ")"

end TapeLang.Text
