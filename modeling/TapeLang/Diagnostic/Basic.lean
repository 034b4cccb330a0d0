import TapeLang.Json
import TapeLang.Location
import TapeLang.Table

/-!
# Diagnostics

A diagnostic is a finding about a program that has been built: an error that forbids running it, a
warning, or a piece of information.

* `Severity`: how serious a finding is.
* `Diagnostic`: a finding with its identifier, its message and its place.
* `Diagnostic.text`, `Diagnostic.toJson`: the two forms in which it is shown.
-/

namespace TapeLang

/-- How serious a finding is. -/
inductive Severity where
  | error
  | warning
  | information
  deriving DecidableEq, Repr

namespace Severity

/-- The word for a severity. -/
def text : Severity → String
  | .error => "error"
  | .warning => "warning"
  | .information => "information"

/-- The rank of a severity; a lower one is more serious. -/
def rank : Severity → Nat
  | .error => 0
  | .warning => 1
  | .information => 2

end Severity

/-- A finding about a program. -/
structure Diagnostic where
  id : String
  message : String
  severity : Severity
  location : Option Location := none
  /-- The state that the finding is about. -/
  state : Option String := none
  /-- Further data, by name. -/
  extra : Table String Json := .empty

namespace Diagnostic

/-- Whether the finding forbids running the program. -/
def isError (d : Diagnostic) : Bool := d.severity == .error

/-- File and line, and the column if it is known. -/
def placeText (l : Location) : String :=
  if 0 < l.column then l.text else l.file ++ ":" ++ toString l.line

/-- The diagnostic as a line of text. -/
def text (d : Diagnostic) : String :=
  (d.location.map placeText).getD "<unknown>" ++ ": " ++ d.severity.text ++ ": [" ++ d.id ++ "] " ++
    d.message

/-- A location as a JSON object. -/
def locationJson (l : Location) : Json :=
  .obj [("file", .str l.file), ("line", .int l.line), ("column", .int l.column)]

/-- The diagnostic as a JSON object, without the parts that it lacks. -/
def toJson (d : Diagnostic) : Json :=
  .obj (
    [("errorId", .str d.id), ("message", .str d.message), ("severity", .str d.severity.text)] ++
    (d.location.map fun l => ("location", locationJson l)).toList ++
    (d.state.map fun s => ("state", .str s)).toList ++
    if d.extra.isEmpty then [] else [("extra", .obj d.extra.entries)])

/-- The errors among diagnostics. -/
def errors (ds : List Diagnostic) : List Diagnostic := ds.filter isError

/-- Whether there is an error among diagnostics. -/
def hasErrors (ds : List Diagnostic) : Bool := ds.any isError

end Diagnostic

end TapeLang
