import TapeLang.Location
import TapeLang.Table
import TapeLang.Text.Quoted

/-!
# Programs

A program is the description of a multi-tape Turing machine: its states with their transitions, its
initial tapes and heads, and its blank symbol. Nothing is required of a `Program` here; those built
from a syntax tree have equal numbers of tapes and heads, and transitions of that length.

* `Direction`: a move of a head.
* `Transition`, `State`, `Program`: the description.
* `Program.withTapes`: the program on other input.
-/

namespace TapeLang

/-- A tape symbol. -/
abbrev Symbol := String

/-- A move of a head. -/
inductive Direction where
  | left
  | right
  | stay
  deriving DecidableEq, Repr

namespace Direction

/-- The letter of a move. -/
def text : Direction → String
  | .left => "L"
  | .right => "R"
  | .stay => "S"

/-- The change of the head's position. -/
def delta : Direction → Int
  | .left => -1
  | .right => 1
  | .stay => 0

/-- The move that a spelling stands for. -/
def ofText? : String → Option Direction
  | "L" | "<" => some .left
  | "R" | ">" => some .right
  | "S" | "-" => some .stay
  | _ => none

/-- The complaint about a spelling that stands for no move. -/
def unknownText (token : String) : String := "Unknown direction " ++ Text.quoted token

end Direction

/-- What a machine does in a state when it reads given symbols. -/
structure Transition where
  read : List Symbol
  write : List Symbol
  move : List Direction
  next : String
  loc : Location := {}
  deriving DecidableEq, Repr

/-- A state with its transitions under the symbols that they read, in the order of declaration. -/
structure State where
  name : String
  transitions : Table (List Symbol) Transition := .empty
  loc : Location := {}

namespace State

/-- Whether the state has no transition, so that a machine halts in it. -/
def isHalting (s : State) : Bool := s.transitions.isEmpty

/-- The transition for given symbols. -/
def lookup (s : State) (read : List Symbol) : Option Transition := s.transitions.find? read

end State

/-- The description of a machine. -/
structure Program where
  name : Option String
  blank : Symbol
  arity : Int
  /-- The initial contents of the tapes, from position zero. -/
  tapes : List (List Symbol)
  /-- The initial positions of the heads. -/
  heads : List Int
  states : Table String State
  start : String
  sourcePath : Option String := none

/-- Why a program cannot take given input. -/
inductive InputError where
  /-- The number of tapes is not that of the program. -/
  | tapeCount (arity : Int) (found : Nat)
  /-- A symbol is not a single character. -/
  | wideSymbol (s : Symbol)
  deriving DecidableEq, Repr

/-- The error in words. -/
def InputError.message : InputError → String
  | .tapeCount arity found =>
    "expected " ++ toString arity ++ " tape(s), got " ++ toString found
  | .wideSymbol s => "tape symbols must be single characters, got " ++ Text.quoted s

namespace Program

/-- The state of a given name. -/
def state? (p : Program) (name : String) : Option State := p.states.find? name

/-- Every transition with its state, in the order of declaration. -/
def transitions (p : Program) : List (State × Transition) :=
  p.states.values.flatMap fun s => s.transitions.values.map fun t => (s, t)

/-- The number of transitions. -/
def transitionCount (p : Program) : Nat := p.transitions.length

/-- Whether the program has more than one tape. -/
def isMultiTape (p : Program) : Bool := 1 < p.arity

/-- The program on other input, one row for each tape. The heads stay where they are. -/
def withTapes (p : Program) (rows : List (List Symbol)) : Except InputError Program :=
  if (rows.length : Int) ≠ p.arity then .error (.tapeCount p.arity rows.length)
  else
    match rows.flatten.find? fun s => s.length ≠ 1 with
    | some s => .error (.wideSymbol s)
    | none => .ok { p with tapes := rows }

end Program

end TapeLang
