import TapeLang.Diagnostic.Basic
import TapeLang.Program.Basic

/-!
# Findings about a program

Everything that the static checks can say, as causes. `Finding.diagnostic` puts a finding into words.
-/

namespace TapeLang

/-- Something that a check has found. -/
inductive Finding where
  | noStates
  | undeclaredStart (start : String)
  /-- A transition leads to a state that is not declared. -/
  | undefinedState (state : String) (t : Transition)
  /-- No path of transitions leads from the start state to this one. -/
  | unreachableState (name start : String) (loc : Location)
  /-- A head starts neither on its tape nor right behind it. -/
  | invalidHead (index : Nat) (head : Int) (length : Nat)
  | lowArity (arity : Int)
  | tapeCount (found : Nat) (arity : Int)
  | headCount (found : Nat) (arity : Int)
  /-- A transition has not one entry for each tape. -/
  | vectorLengths (state : String) (t : Transition) (arity : Int)
  /-- A symbol of an initial tape is read by no transition. -/
  | uncoveredSymbol (tape : Nat) (symbol : Symbol)
  /-- The start state has transitions, and none for the symbols that a machine reads first. -/
  | startNoMatch (state : String) (loc : Location) (read : List Symbol)
  deriving DecidableEq, Repr

namespace Finding

/-- The place of a finding: none for a location without a line; a given file name replaces that of the
location. -/
def place (file : Option String) (loc : Location) : Option Location :=
  if loc.line ≤ 0 then none
  else
    match file with
    | some name => some { loc with file := if name.isEmpty then loc.file else name }
    | none => some loc

/-- The parts of a transition whose length is not the arity, with their lengths. -/
def badParts (t : Transition) (arity : Int) : List String :=
  let part (label : String) (n : Nat) : List String :=
    if (n : Int) = arity then [] else [label ++ "=" ++ toString n]
  part "read" t.read.length ++ part "write" t.write.length ++ part "move" t.move.length

/-- The finding in words. -/
def diagnostic (file : Option String) : Finding → Diagnostic
  | .noStates =>
    { id := "missing-start-state", severity := .error, message := "Program declares no states" }
  | .undeclaredStart start =>
    { id := "missing-start-state", severity := .error
      message := "Start state '" ++ start ++ "' is not declared"
      state := some start }
  | .undefinedState state t =>
    { id := "undefined-state", severity := .error
      message :=
        "State '" ++ state ++ "' reading " ++ Text.quotedList t.read ++
          " transitions to undefined state '" ++ t.next ++ "'"
      location := place file t.loc
      state := some state
      extra := .ofList [("read", .strs t.read), ("target", .str t.next)] }
  | .unreachableState name start loc =>
    { id := "unreachable-state", severity := .warning
      message := "State '" ++ name ++ "' is unreachable from start state '" ++ start ++ "'"
      location := place file loc
      state := some name }
  | .invalidHead index head length =>
    { id := "invalid-head", severity := .error
      message :=
        "Head " ++ toString index ++ " starts at position " ++ toString head ++
          ", outside tape " ++ toString index ++ " (valid positions are 0 to " ++
          toString length ++ ")"
      extra := .ofList [("tape", .int index), ("head", .int head), ("length", .int length)] }
  | .lowArity arity =>
    { id := "arity-mismatch", severity := .error
      message := "Program arity must be at least 1, got " ++ toString arity }
  | .tapeCount found arity =>
    { id := "arity-mismatch", severity := .error
      message :=
        "Program declares " ++ toString found ++ " tape(s) but has arity " ++ toString arity }
  | .headCount found arity =>
    { id := "arity-mismatch", severity := .error
      message :=
        "Program declares " ++ toString found ++ " head(s) but has arity " ++ toString arity }
  | .vectorLengths state t arity =>
    { id := "arity-mismatch", severity := .error
      message :=
        "Transition in state '" ++ state ++ "' does not match arity " ++ toString arity ++ " (" ++
          ", ".intercalate (badParts t arity) ++ ")"
      location := place file t.loc
      state := some state }
  | .uncoveredSymbol tape symbol =>
    { id := "uncovered-symbol", severity := .warning
      message :=
        "Symbol " ++ Text.quoted symbol ++ " on tape " ++ toString tape ++
          " is never read by any transition"
      extra := .ofList [("tape", .int tape), ("symbol", .str symbol)] }
  | .startNoMatch state loc read =>
    { id := "start-no-match", severity := .information
      message :=
        "No transition of start state '" ++ state ++ "' matches the initial symbols " ++
          Text.quotedList read ++ "; the machine stops before its first step"
      location := place file loc
      state := some state
      extra := .ofList [("read", .strs read)] }

end Finding

end TapeLang
