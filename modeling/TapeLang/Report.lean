import TapeLang.Json
import TapeLang.Location

/-!
# Error reports

A report says what is wrong with a program and where, under a numbered code.

* `Phase`, `Code`: the codes and the phase of the work that each belongs to.
* `Report`: a message with its code, its place, the source line and a hint.
* `Report.text`, `Report.toJson`: the two forms in which a report is shown.
-/

namespace TapeLang

/-- The phase of the work in which an error arises. -/
inductive Phase where
  /-- Reading the source text. -/
  | reading
  /-- Building a program from its syntax tree. -/
  | build
  /-- Checking a built program. -/
  | analysis
  deriving DecidableEq, Repr

/-- The word for a phase. -/
def Phase.text : Phase → String
  | .reading => "syntax"
  | .build => "build"
  | .analysis => "analysis"

/-- A numbered kind of error. -/
structure Code where
  number : Int
  phase : Phase
  title : String
  family : String := "TUR"
  deriving DecidableEq, Repr

namespace Code

/-- The family and the number, the number with at least four characters. -/
def text (c : Code) : String := c.family ++ "-" ++ Text.zeroPadded 4 c.number

/-- The code with its title. -/
def display (c : Code) : String :=
  "ErrorCode(" ++ Text.quoted c.text ++ ", " ++ Text.quoted c.title ++ ")"

/-- Two codes are the same if family and number agree; phase and title are descriptions. -/
def same (c d : Code) : Bool := c.family == d.family && c.number == d.number

def invalidSyntax : Code := ⟨1001, .reading, "invalid syntax", "TUR"⟩
def badIndentation : Code := ⟨1002, .reading, "inconsistent indentation", "TUR"⟩
def duplicateDirective : Code := ⟨1003, .reading, "duplicate directive", "TUR"⟩
def exclusiveDirectives : Code := ⟨1004, .reading, "mutually exclusive directives", "TUR"⟩
def missingSection : Code := ⟨1005, .reading, "missing section", "TUR"⟩
def literalArity : Code := ⟨1006, .reading, "inconsistent multi-tape literal", "TUR"⟩
def headCount : Code := ⟨1007, .reading, "head count mismatch", "TUR"⟩
def duplicateState : Code := ⟨1008, .reading, "duplicate state", "TUR"⟩
def programTooLarge : Code := ⟨1009, .reading, "program too large", "TUR"⟩
def emptyBlock : Code := ⟨1010, .reading, "empty block", "TUR"⟩
def arityMismatch : Code := ⟨2001, .build, "arity mismatch", "TUR"⟩
def duplicateTransition : Code := ⟨2002, .build, "duplicate transition", "TUR"⟩
def noStates : Code := ⟨2003, .build, "no states", "TUR"⟩
def analysisFailed : Code := ⟨3001, .analysis, "analysis failed", "TUR"⟩

end Code

/-- A message about an error, with its place. -/
structure Report where
  code : Code
  message : String
  span : Span := {}
  hint : String := ""
  sourceLine : String := ""
  deriving DecidableEq, Repr

namespace Report

/-- The source line and a line of carets under the reported columns. -/
def excerpt (r : Report) : List String :=
  if r.sourceLine.isEmpty then []
  else
    let carets := max 1 (r.span.endColumn - r.span.column).toNat
    let marks := String.ofList
      (List.replicate (r.span.column - 1).toNat ' ' ++ List.replicate carets '^')
    ("    " ++ r.sourceLine) :: if 0 < r.span.column then ["    " ++ marks] else []

/-- The report as lines of text: the message, the excerpt, the hint. -/
def text (r : Report) : String :=
  let message := r.span.text ++ ": error: " ++ r.message ++ " [" ++ r.code.text ++ "]"
  let hint := if r.hint.isEmpty then [] else ["hint: " ++ r.hint]
  "\n".intercalate (message :: (r.excerpt ++ hint))

/-- The report as a JSON object. -/
def toJson (r : Report) : Json :=
  .obj [
    ("code", .str r.code.text),
    ("message", .str r.message),
    ("phase", .str r.code.phase.text),
    ("location", .obj [
      ("file", .str r.span.file),
      ("line", .int r.span.line),
      ("column", .int r.span.column)]),
    ("snippet", .str r.sourceLine),
    ("hint", .str r.hint)]

end Report

end TapeLang
