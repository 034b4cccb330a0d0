import TapeLang.Ast.Basic
import TapeLang.Log
import TapeLang.Program.Basic
import TapeLang.Report

/-!
# Building a program from a syntax tree

The blank symbol is put in place of its alias, missing heads and writes are filled in, and the
lengths that no single line shows are checked.

* `BuildError`: the causes for which a tree is refused.
* `build`: the program of a tree.
-/

namespace TapeLang

/-- The blank symbol of a program that declares none. -/
def defaultBlank : Symbol := " "

/-- A part of a transition with one entry for each tape. -/
inductive VectorPart where
  | read
  | write
  | move
  deriving DecidableEq, Repr

/-- The word for a part of a transition. -/
def VectorPart.text : VectorPart → String
  | .read => "read"
  | .write => "write"
  | .move => "move"

/-- A cause for refusing a syntax tree. -/
inductive BuildError where
  | noTapes (loc : Location)
  | headCount (arity found : Nat) (loc : Location)
  | noStates (path : Option String)
  | vectorLength (state : String) (part : VectorPart) (length arity : Nat) (loc : Location)
  | repeatedRead (state : String) (read : List Symbol) (first : Int) (loc : Location)
  /-- A move has no meaning; the line rules let no such tree through. -/
  | unknownDirection (token : String)
  deriving DecidableEq, Repr

namespace BuildError

/-- The error in words. -/
def message : BuildError → String
  | .noTapes _ => "A program needs at least one tape"
  | .headCount arity found _ =>
    "Expected " ++ toString arity ++ " head position(s) but found " ++ toString found
  | .noStates _ => "A program needs at least one state"
  | .vectorLength state part length arity _ =>
    "Transition in state '" ++ state ++ "' has " ++ toString length ++ " " ++ part.text ++
      " entr" ++ (if length = 1 then "y" else "ies") ++ " but the program has " ++
      toString arity ++ " tape(s)"
  | .repeatedRead state read first loc =>
    "State '" ++ state ++ "' has two transitions reading " ++ Text.quotedList read ++
      " (lines " ++ toString first ++ " and " ++ toString loc.line ++ ")"
  | .unknownDirection token => Direction.unknownText token

/-- The code and the place of an error; an unknown move has none. -/
def place? : BuildError → Option (Code × Span)
  | .noTapes loc => some (.arityMismatch, .ofLocation loc)
  | .headCount _ _ loc => some (.arityMismatch, .ofLocation loc)
  | .noStates path => some (.noStates, .point (path.getD "") 0 0)
  | .vectorLength _ _ _ _ loc => some (.arityMismatch, .ofLocation loc)
  | .repeatedRead _ _ _ loc => some (.duplicateTransition, .ofLocation loc)
  | .unknownDirection _ => none

/-- The report of an error that has a place. -/
def report? (e : BuildError) : Option Report :=
  e.place?.map fun (code, span) => { code := code, message := e.message, span := span }

end BuildError

namespace Ast

/-- The symbols of a row, given the blank symbol. -/
def resolveAll (blank : TapeLang.Symbol) (row : List Ast.Symbol) : List TapeLang.Symbol :=
  row.map (Ast.Symbol.resolve blank)

/-- The moves that a list of spellings stands for. -/
def directions : List String → Except BuildError (List Direction)
  | [] => .ok []
  | token :: tokens =>
    match Direction.ofText? token with
    | none => .error (.unknownDirection token)
    | some d => do return d :: (← directions tokens)

/-- The transition of a node of a state. -/
def Transition.build (blank : TapeLang.Symbol) (arity : Nat) (state : String) (t : Transition) :
    Except BuildError TapeLang.Transition := do
  let read := resolveAll blank t.read
  let write := (t.write.map (resolveAll blank)).getD read
  let move ← directions t.moves
  if read.length ≠ arity then .error (.vectorLength state .read read.length arity t.loc)
  else if write.length ≠ arity then .error (.vectorLength state .write write.length arity t.loc)
  else if move.length ≠ arity then .error (.vectorLength state .move move.length arity t.loc)
  else .ok ⟨read, write, move, t.next, t.loc⟩

/-- The table of a state's transitions, added to a table of earlier ones. -/
def buildTransitions (blank : TapeLang.Symbol) (arity : Nat) (state : String) :
    List Transition → Table (List TapeLang.Symbol) TapeLang.Transition →
      Except BuildError (Table (List TapeLang.Symbol) TapeLang.Transition)
  | [], table => .ok table
  | node :: nodes, table => do
    let t ← node.build blank arity state
    match table.find? t.read with
    | some earlier => .error (.repeatedRead state t.read earlier.loc.line t.loc)
    | none => buildTransitions blank arity state nodes (table.insert t.read t)

/-- The state of a node. -/
def State.build (blank : TapeLang.Symbol) (arity : Nat) (s : State) :
    Except BuildError TapeLang.State := do
  return ⟨s.name, ← buildTransitions blank arity s.name s.transitions .empty, s.loc⟩

/-- The table of states, added to a table of earlier ones. A repeated name keeps its place and takes
the later state. -/
def buildStates (blank : TapeLang.Symbol) (arity : Nat) :
    List State → Table String TapeLang.State → Except BuildError (Table String TapeLang.State)
  | [], table => .ok table
  | node :: nodes, table => do
    buildStates blank arity nodes (table.insert node.name (← node.build blank arity))

end Ast

/-- The program of a syntax tree. -/
def build (tree : Ast.Program) : Except BuildError Program := do
  let blank := (tree.blank.map Ast.BlankDecl.symbol).getD defaultBlank
  let arity := tree.tape.arity
  let heads := (tree.head.map Ast.HeadDecl.positions).getD (List.replicate arity 0)
  if arity = 0 then .error (.noTapes tree.tape.loc)
  else if heads.length ≠ arity then
    .error (.headCount arity heads.length ((tree.head.map Ast.HeadDecl.loc).getD {}))
  else
    match tree.states with
    | [] => .error (.noStates tree.sourcePath)
    | first :: _ =>
      return {
        name := tree.name.map Ast.NameDecl.text
        blank := blank
        arity := arity
        tapes := tree.tape.rows.map (Ast.resolveAll blank)
        heads := heads
        states := ← Ast.buildStates blank arity tree.states .empty
        start := first.name
        sourcePath := tree.sourcePath }

/-- The note that a program has been built. -/
def builtRecord (p : Program) : LogRecord where
  level := .debug
  source := "turlang.builder"
  message :=
    "Built program " ++ (p.name.map Text.quoted).getD "None" ++ ": " ++ toString p.arity ++
      " tape(s), " ++ toString p.states.size ++ " state(s), " ++ toString p.transitionCount ++
      " transition(s), blank=" ++ Text.quoted p.blank

end TapeLang
