import TapeLang.Source.Indent
import TapeLang.Text.Lines

/-!
# Logical lines

A logical line is a physical line without its comment and its trailing spaces, if anything is left.

* `stripComment`: a line up to its comment.
* `Line`: a logical line with its number, its indentation and the physical line.
* `scanLines`: the logical lines of a text.
-/

namespace TapeLang

/-- A line up to its comment, where `fresh` says whether a number sign would start one here. Three
characters of which the first and the last are quotes are a symbol and are passed over together. -/
def stripCommentFrom (fresh : Bool) : List Char → List Char
  | [] => []
  | '\'' :: c :: '\'' :: rest => '\'' :: c :: '\'' :: stripCommentFrom false rest
  | c :: rest =>
    if c = '#' ∧ fresh then [] else c :: stripCommentFrom (Text.isBlank c) rest

/-- A line up to its comment. A number sign starts a comment at the beginning of the line and after a
space or a tab, but not inside a quoted symbol. -/
def stripComment (s : List Char) : List Char := stripCommentFrom true s

/-- A line of the source that holds more than a comment. -/
structure Line where
  /-- The number of the physical line, from one. -/
  number : Nat
  indent : Indent
  /-- What stands between the indentation and the comment, without trailing spaces. -/
  content : List Char
  /-- The physical line. -/
  raw : List Char
  deriving DecidableEq, Repr

namespace Line

/-- The column of the first character of the content. -/
def column (l : Line) : Nat := l.indent.length + 1

/-- The logical line on a physical line, if there is one. -/
def ofRaw? (number : Nat) (raw : List Char) : Option Line :=
  let (indent, rest) := splitIndent raw
  let content := Text.trimEnd (stripComment rest)
  if content.isEmpty then none else some ⟨number, indent, content, raw⟩

end Line

/-- The logical lines among physical lines of which the first has number `n`. -/
def scanFrom (n : Nat) : List (List Char) → List Line
  | [] => []
  | raw :: raws =>
    match Line.ofRaw? n raw with
    | some line => line :: scanFrom (n + 1) raws
    | none => scanFrom (n + 1) raws

/-- The logical lines of a text. -/
def scanLines (text : List Char) : List Line := scanFrom 1 (Text.splitLines text)

end TapeLang
