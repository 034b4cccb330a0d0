/-!
# Physical lines

A text is cut into lines at every line break; a carriage return followed by a line feed is one
break, and a break at the very end opens no further line.

* `isLineBreak`: the characters that end a line.
* `splitLines`: the lines of a text, without their breaks.
* `unifyBreaks`: the text with every carriage return, alone or before a line feed, replaced by a
  line feed.
-/

namespace TapeLang.Text

/-- A character that ends a line. -/
def isLineBreak (c : Char) : Bool :=
  let n := c.toNat
  (0x0A ≤ n && n ≤ 0x0D) || (0x1C ≤ n && n ≤ 0x1E) || n == 0x85 || n == 0x2028 || n == 0x2029

/-- The lines of a text of which `current` (last character first) has been read since the last
break. -/
def linesFrom (current : List Char) : List Char → List (List Char)
  | [] => if current.isEmpty then [] else [current.reverse]
  | '\r' :: '\n' :: rest => current.reverse :: linesFrom [] rest
  | c :: rest =>
    if isLineBreak c then current.reverse :: linesFrom [] rest else linesFrom (c :: current) rest

/-- The lines of a text, without their breaks. -/
def splitLines (s : List Char) : List (List Char) := linesFrom [] s

/-- `unifyBreaks` on a text whose beginning has become `done` (last character first). -/
def unifyBreaksFrom (done : List Char) : List Char → List Char
  | [] => done.reverse
  | '\r' :: '\n' :: rest => unifyBreaksFrom ('\n' :: done) rest
  | '\r' :: rest => unifyBreaksFrom ('\n' :: done) rest
  | c :: rest => unifyBreaksFrom (c :: done) rest

/-- The text with every carriage return, alone or before a line feed, turned into a line feed. -/
def unifyBreaks (s : List Char) : List Char := unifyBreaksFrom [] s

end TapeLang.Text
