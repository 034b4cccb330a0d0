import TapeLang.Text.Pad

/-!
# Places in a source text

Lines and columns count from one; zero stands for an unknown place. A location may come from a tree
that was not read from a text, so its numbers are integers.

* `Location`: a file, a line and a column.
* `Span`: a place with a beginning and an end.
-/

namespace TapeLang

/-- A position in a source file. -/
structure Location where
  file : String := "<unknown>"
  line : Int := 0
  column : Int := 0
  deriving DecidableEq, Repr, Inhabited

/-- File, line and column, separated by colons. -/
def Location.text (l : Location) : String :=
  l.file ++ ":" ++ toString l.line ++ ":" ++ toString l.column

/-- A stretch of a source file. -/
structure Span where
  file : String := ""
  line : Int := 0
  column : Int := 0
  endLine : Int := 0
  endColumn : Int := 0
  deriving DecidableEq, Repr, Inhabited

namespace Span

/-- The stretch between two places; an end of zero is the beginning. -/
def between (file : String) (line column endLine endColumn : Int) : Span where
  file := file
  line := line
  column := column
  endLine := if endLine = 0 then line else endLine
  endColumn := if endColumn = 0 then column else endColumn

/-- The stretch that begins and ends in one place. -/
def point (file : String) (line column : Int) : Span := between file line column 0 0

/-- The stretch at a location. -/
def ofLocation (l : Location) : Span := point l.file l.line l.column

/-- The beginning of the stretch, without its unknown parts. -/
def text (s : Span) : String :=
  if s.file.isEmpty && s.line == 0 then "<unknown location>"
  else
    let file := if s.file.isEmpty then [] else [s.file]
    let line := if 0 < s.line then [toString s.line] else []
    let column := if 0 < s.line && 0 < s.column then [toString s.column] else []
    ":".intercalate (file ++ line ++ column)

end Span

end TapeLang
