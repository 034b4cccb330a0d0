import TapeLang.Ast.Basic
import TapeLang.Report
import TapeLang.Source.Line

/-!
# What can be wrong with a source text

* `Directive`: the directives that a program may declare.
* `LineKind`: what a line, or the part of it after a colon, should hold.
* `Violation`: the causes for which a text is refused, with their wording and their codes.
* `SourceError`: a violation with its place.
* `ReadError`: the ways in which reading a text can end without a tree.
-/

namespace TapeLang

/-- A declaration outside every block. -/
inductive Directive where
  | name
  | tape
  | tapes
  | head
  | heads
  | blank
  | rules
  deriving DecidableEq, Repr

namespace Directive

/-- The keyword of a directive. -/
def text : Directive → String
  | .name => "name"
  | .tape => "tape"
  | .tapes => "tapes"
  | .head => "head"
  | .heads => "heads"
  | .blank => "blank"
  | .rules => "rules"

/-- All directives. -/
def all : List Directive := [.name, .tape, .tapes, .head, .heads, .blank, .rules]

/-- The directive with a given keyword. -/
def ofText? (key : String) : Option Directive := all.find? fun d => d.text = key

/-- The two spellings of a declaration of which a program may have only one. -/
def variants : Directive → Option (Directive × Directive)
  | .tape | .tapes => some (.tape, .tapes)
  | .head | .heads => some (.head, .heads)
  | _ => none

end Directive

/-- What a line, or the part of it after a colon, should hold. -/
inductive LineKind where
  | transition
  | stateHeader
  | tapeValue
  | tapeRow
  | headValue
  | headsValue
  | blankValue
  deriving DecidableEq, Repr

/-- A kind of line in words. -/
def LineKind.text : LineKind → String
  | .transition => "transition"
  | .stateHeader => "state header"
  | .tapeValue => "tape symbol list"
  | .tapeRow => "tape row"
  | .headValue => "head position"
  | .headsValue => "head position list"
  | .blankValue => "blank symbol"

/-- The greatest number of characters of a source text. -/
def maxProgramSize : Nat := 65536

/-- A cause for refusing a source text. -/
inductive Violation where
  | tooLarge (size : Nat)
  | unexpectedIndent
  | inconsistentIndent (cause : IndentError)
  | emptyTapes
  | emptyRules
  | noDirective
  | unknownDirective (key : String)
  | repeatedDirective (d : Directive) (first : Nat)
  | exclusiveDirectives (one other : Directive)
  | missingName
  | trailingText (d : Directive)
  | expectedHeader
  | misplacedHeader
  | repeatedState (name : String) (first : Int)
  /-- The text does not match; the character is the one at the place, if it is not the end. -/
  | malformed (kind : LineKind) (found : Option Char)
  | emptyRead
  | unevenVectors (read write moves : Nat)
  | missingTape
  | missingRules
  | headCount (arity found : Nat)
  deriving DecidableEq, Repr

namespace Violation

/-- The violation in words. -/
def message : Violation → String
  | .tooLarge size =>
    "Program is too large (" ++ toString size ++ " characters, the limit is " ++
      toString maxProgramSize ++ ")"
  | .unexpectedIndent => "Unexpected indentation"
  | .inconsistentIndent cause => "Inconsistent indentation: " ++ cause.message
  | .emptyTapes => "'tapes:' must be followed by at least one indented tape row"
  | .emptyRules => "'rules:' must contain at least one indented state"
  | .noDirective => "Expected a directive such as 'tape:' or 'rules:'"
  | .unknownDirective key => "Unknown directive '" ++ key ++ ":'"
  | .repeatedDirective d first =>
    "Duplicate \"" ++ d.text ++ ":\" declaration (first declared on line " ++ toString first ++ ")"
  | .exclusiveDirectives one other =>
    "Only one of '" ++ one.text ++ "' or '" ++ other.text ++ "' is allowed"
  | .missingName => "'name:' requires a value"
  | .trailingText d =>
    "Nothing may follow '" ++ d.text ++
      ":' on the same line; put its entries on indented lines below"
  | .expectedHeader =>
    "Expected a state header 'name:'; transitions must be indented below their state"
  | .misplacedHeader =>
    "Unexpected state header inside a state block; state headers must be indented at the same " ++
      "level as the other states"
  | .repeatedState name first =>
    "State '" ++ name ++ "' is already declared on line " ++ toString first
  | .malformed kind (some c) =>
    "Invalid " ++ kind.text ++ ": unexpected " ++ Text.quoted (String.singleton c)
  | .malformed kind none => "Invalid " ++ kind.text ++ ": unexpected end of line"
  | .emptyRead => "Multi-tape transition must read at least one symbol"
  | .unevenVectors read write moves =>
    "Inconsistent multi-tape action: read=" ++ toString read ++ ", write=" ++ toString write ++
      ", directions=" ++ toString moves
  | .missingTape => "Missing 'tape' or 'tapes' section"
  | .missingRules => "Missing 'rules' section"
  | .headCount arity found =>
    "Expected " ++ toString arity ++ " head position(s), one per tape, but found " ++
      toString found

/-- The code of a violation. -/
def code : Violation → Code
  | .tooLarge _ => .programTooLarge
  | .unexpectedIndent | .inconsistentIndent _ | .misplacedHeader => .badIndentation
  | .emptyTapes | .emptyRules => .emptyBlock
  | .repeatedDirective .. => .duplicateDirective
  | .exclusiveDirectives .. => .exclusiveDirectives
  | .repeatedState .. => .duplicateState
  | .emptyRead | .unevenVectors .. => .literalArity
  | .missingTape | .missingRules => .missingSection
  | .headCount .. => .headCount
  | .noDirective | .unknownDirective _ | .missingName | .trailingText _ | .expectedHeader
  | .malformed .. => .invalidSyntax

end Violation

/-- A violation with its place and the physical line on which it stands. -/
structure SourceError where
  violation : Violation
  file : String
  line : Int
  column : Int
  snippet : List Char
  deriving DecidableEq, Repr

/-- The report of a source error. -/
def SourceError.report (e : SourceError) : Report where
  code := e.violation.code
  message := e.violation.message
  span := .point e.file e.line e.column
  sourceLine := String.ofList e.snippet

/-- How reading a text can end without a tree. -/
inductive ReadError where
  /-- The text is refused. -/
  | refused (e : SourceError)
  /-- A head position has too many digits, or a digit without a value. -/
  | badNumeral (digits : List Char)
  /-- A line has no block that it could belong to. -/
  | homeless
  deriving DecidableEq, Repr

/-- What is wrong with the vectors of a transition line: they have to be equally long, and not
empty. -/
def Ast.Transition.vectorViolation? (t : Ast.Transition) : Option Violation :=
  let write := (t.write.map List.length).getD t.read.length
  if !t.multi then none
  else if t.read.isEmpty then some .emptyRead
  else if t.moves.length = t.read.length ∧ write = t.read.length then none
  else some (.unevenVectors t.read.length write t.moves.length)

end TapeLang
