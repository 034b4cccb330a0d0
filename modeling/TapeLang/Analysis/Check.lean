import TapeLang.Analysis.Finding
import TapeLang.Diagnostic.Suppression
import TapeLang.Log

/-!
# Static checks

Seven checks of a program, each independent of the others.

* `Check`, `Check.findings`: the checks and what each of them finds.
* `reachable`: the states to which transitions lead from the start state.
* `analyze`: the diagnostics of all checks, filtered by severity and suppressions.
-/

namespace TapeLang

namespace Program

/-- The start state has to be declared. -/
def startFindings (p : Program) : List Finding :=
  if p.states.isEmpty then [.noStates]
  else if p.states.contains p.start then []
  else [.undeclaredStart p.start]

/-- Every transition has to lead to a declared state. -/
def targetFindings (p : Program) : List Finding :=
  p.transitions.filterMap fun (s, t) =>
    if p.states.contains t.next then none else some (.undefinedState s.name t)

/-- The targets of a state's transitions. -/
def targets (p : Program) (name : String) : List String :=
  match p.state? name with
  | some s => s.transitions.values.map Transition.next
  | none => []

/-- The declared states among names that are not yet known, each once, last found first. -/
def freshTargets (p : Program) (seen : List String) : List String → List String → List String
  | [], fresh => fresh
  | name :: names, fresh =>
    if p.states.contains name ∧ name ∉ seen ∧ name ∉ fresh then
      p.freshTargets seen names (name :: fresh)
    else p.freshTargets seen names fresh

/-- Follow the transitions of the states in the queue, at most `fuel` of them, in the order in which they
have been found. -/
def explore (p : Program) : Nat → List String → List String → List String
  | 0, _, seen => seen
  | _ + 1, [], seen => seen
  | fuel + 1, name :: queue, seen =>
    let fresh := p.freshTargets seen (p.targets name) []
    p.explore fuel (queue ++ fresh.reverse) (fresh ++ seen)

/-- The states to which transitions through declared states lead from the start state. Each state
enters the queue at most once, so the number of states bounds the search. -/
def reachable (p : Program) : List String := p.explore p.states.size [p.start] [p.start]

/-- Every state should be reachable from the start state. -/
def reachFindings (p : Program) : List Finding :=
  if p.states.contains p.start then
    let seen := p.reachable
    p.states.entries.filterMap fun (name, s) =>
      if name ∈ seen then none else some (.unreachableState name p.start s.loc)
  else []

/-- Every head has to start on its tape or right behind it. -/
def headFindings (p : Program) : List Finding :=
  (p.heads.zip p.tapes).zipIdx.filterMap fun ((head, tape), index) =>
    if 0 ≤ head ∧ head ≤ tape.length then none else some (.invalidHead index head tape.length)

/-- The numbers of tapes and heads and the lengths of all vectors have to be the arity. -/
def arityFindings (p : Program) : List Finding :=
  (if p.arity < 1 then [.lowArity p.arity] else []) ++
    (if (p.tapes.length : Int) = p.arity then [] else [.tapeCount p.tapes.length p.arity]) ++
    (if (p.heads.length : Int) = p.arity then [] else [.headCount p.heads.length p.arity]) ++
    p.transitions.filterMap fun (s, t) =>
      if (t.read.length : Int) = p.arity ∧ (t.write.length : Int) = p.arity ∧
          (t.move.length : Int) = p.arity then none
      else some (.vectorLengths s.name t p.arity)

/-- The symbols of a row that are not in `seen`, each at its first occurrence. -/
def distinctSymbols (seen : List Symbol) : List Symbol → List Symbol
  | [] => []
  | s :: row =>
    if s ∈ seen then distinctSymbols seen row else s :: distinctSymbols (s :: seen) row

/-- The symbols that transitions read on a tape. -/
def readSymbols (p : Program) (index : Nat) : List Symbol :=
  p.transitions.filterMap fun (_, t) => t.read[index]?

/-- Every symbol on a tape, the blank apart, should be read by some transition. -/
def coverageFindings (p : Program) : List Finding :=
  p.tapes.zipIdx.flatMap fun (tape, index) =>
    let readable := p.readSymbols index
    ((distinctSymbols [] tape).filter fun s => s ≠ p.blank ∧ s ∉ readable).map
      (.uncoveredSymbol index ·)

/-- The initial symbol of a tape at a position. -/
def initialSymbol (p : Program) (tape : List Symbol) (head : Int) : Symbol :=
  if 0 ≤ head then (tape[head.toNat]?).getD p.blank else p.blank

/-- The symbols that a machine reads first. -/
def initialRead (p : Program) : List Symbol := List.zipWith p.initialSymbol p.tapes p.heads

/-- The start state should have a transition for what a machine reads first. -/
def startMatchFindings (p : Program) : List Finding :=
  match p.state? p.start with
  | none => []
  | some s =>
    if s.isHalting ∨ (s.lookup p.initialRead).isSome then []
    else [.startNoMatch s.name s.loc p.initialRead]

end Program

/-- A static check. -/
inductive Check where
  | startState
  | undefinedStates
  | reachability
  | heads
  | arity
  | symbolCoverage
  | startMatch
  deriving DecidableEq, Repr

namespace Check

/-- All checks, in the order in which they are made. -/
def all : List Check :=
  [.startState, .undefinedStates, .reachability, .heads, .arity, .symbolCoverage, .startMatch]

/-- What a check finds. -/
def findings : Check → Program → List Finding
  | .startState, p => p.startFindings
  | .undefinedStates, p => p.targetFindings
  | .reachability, p => p.reachFindings
  | .heads, p => p.headFindings
  | .arity, p => p.arityFindings
  | .symbolCoverage, p => p.coverageFindings
  | .startMatch, p => p.startMatchFindings

/-- Make checks in turn and report what they find. -/
def run (checks : List Check) (p : Program) (file : Option String) (c : Collector) : Collector :=
  checks.foldl (fun c check => c.reportAll ((check.findings p).map (Finding.diagnostic file))) c

end Check

/-- The diagnostics of all checks. -/
def analyze (p : Program) (file : Option String := none) (suppressions : Suppressions := {})
    (minSeverity : Severity := .information) : List Diagnostic :=
  (Check.run Check.all p file { suppressions := suppressions, minSeverity := minSeverity }).diagnostics

/-- The note that a program has been analysed. -/
def analyzedRecord (p : Program) (file : Option String) (ds : List Diagnostic) : LogRecord where
  level := .debug
  source := "turlang.analyzer"
  message :=
    let named (name : Option String) : Option String := name.filter fun s => !s.isEmpty
    "Analysis of " ++ ((named file).or (named p.sourcePath)).getD "<program>" ++ ": " ++
      toString ds.length ++ " diagnostic(s), " ++ toString (Diagnostic.errors ds).length ++
      " error(s)"

end TapeLang
