import TapeLang.Tape

/-!
# Machines

A machine runs a program step by step. It stops when it enters a state without transitions or a
state that is not declared, and when no transition fits the symbols under its heads; a strict machine
counts the latter as an error.

* `Mode`, `Config`: how a machine runs.
* `Status`, `Undefined`: whether it is still running, and why not.
* `Machine`, `Machine.start`, `Machine.reset`: a machine and its initial configuration.
* `Machine.step`: one step.
-/

namespace TapeLang

/-- What a machine does when no transition fits: halt, or stop with an error. -/
inductive Mode where
  | normal
  | strict
  deriving DecidableEq, Repr

/-- The word for a mode. -/
def Mode.text : Mode → String
  | .normal => "normal"
  | .strict => "strict"

/-- A state has no transition for the symbols read. -/
structure Undefined where
  state : String
  read : List Symbol
  deriving DecidableEq, Repr

/-- The error in words. -/
def Undefined.message (u : Undefined) : String :=
  "no transition from state '" ++ u.state ++ "' reading " ++ Text.quotedList u.read

/-- Whether a machine is running, and why not. -/
inductive Status where
  | running
  | halted
  | errored (cause : Undefined)
  deriving DecidableEq, Repr

namespace Status

/-- The word for a status. -/
def text : Status → String
  | .running => "running"
  | .halted => "halted"
  | .errored _ => "errored"

/-- The error of a status. -/
def error? : Status → Option Undefined
  | .errored cause => some cause
  | _ => none

end Status

/-- Limits and notes of a run. -/
structure Config where
  /-- The greatest number of steps of a run. -/
  maxSteps : Option Int := none
  /-- After how many steps a note is made; zero for never. -/
  logEvery : Int := 0
  deriving DecidableEq, Repr

/-- What is odd about a configuration. -/
def Config.warnings (c : Config) : List String :=
  (match c.maxSteps with
    | some n => if n ≤ 0 then ["max_steps must be positive"] else []
    | none => []) ++
  if c.logEvery < 0 then ["log_every must be non-negative"] else []

/-- A machine in the middle of its run. -/
structure Machine where
  program : Program
  mode : Mode
  config : Config
  tapes : List Tape
  heads : List Int
  state : String
  /-- The number of transitions made. -/
  steps : Nat
  status : Status

/-- What a step saw and did. -/
structure Outcome where
  status : Status
  steps : Nat
  state : String
  /-- The symbols read, if the machine was running. -/
  read : Option (List Symbol) := none
  /-- The transition made, if one was. -/
  transition : Option Transition := none
  deriving DecidableEq, Repr

/-- A step failed in the middle because a list of the program is too short, or because the blank
symbol is empty. -/
inductive Breakdown where
  | outOfRange
  deriving DecidableEq, Repr

/-- Whether a machine stops on entering a state: it is not declared or has no transitions. -/
def Program.haltsIn (p : Program) (name : String) : Bool :=
  match p.state? name with
  | some s => s.isHalting
  | none => true

/-- The transition of a state for given symbols. -/
def Program.transition? (p : Program) (name : String) (read : List Symbol) : Option Transition :=
  (p.state? name).bind fun s => s.lookup read

namespace Machine

/-- The status of a machine that has just entered a state. -/
def entryStatus (p : Program) (name : String) : Status :=
  if p.haltsIn name then .halted else .running

/-- A machine in the initial configuration of a program. -/
def start (p : Program) (mode : Mode := .normal) (config : Config := {}) : Machine where
  program := p
  mode := mode
  config := config
  tapes := p.tapes.map fun row => Tape.ofList row p.blank
  heads := p.heads
  state := p.start
  steps := 0
  status := entryStatus p p.start

/-- The machine back in its initial configuration. -/
def reset (m : Machine) : Machine := start m.program m.mode m.config

/-- Whether the machine is running. -/
def isRunning (m : Machine) : Bool := m.status == .running

/-- The tapes with the cells under the heads stored. -/
def reachCells : List Tape → List Int → List Tape
  | t :: ts, h :: hs => t.reach h :: reachCells ts hs
  | ts, _ => ts

/-- The symbols under the heads, if all their cells are stored. -/
def readCells? : List Tape → List Int → Option (List Symbol)
  | t :: ts, h :: hs => do return (← t.cell? h) :: (← readCells? ts hs)
  | _, _ => some []

/-- Write and move on one tape after the other, up to the first entry that is missing; the last
component says whether none was. -/
def act : List Tape → List Int → List Symbol → List Direction → List Tape × List Int × Bool
  | [], hs, _, _ => ([], hs, true)
  | t :: ts, h :: hs, w :: ws, ds =>
    let t := t.write h w
    match ds with
    | [] => (t :: ts, h :: hs, false)
    | d :: ds =>
      let (ts, hs, complete) := act ts hs ws ds
      (t :: ts, (h + d.delta) :: hs, complete)
  | ts, hs, _, _ => (ts, hs, false)

/-- What a call reports about the machine as it is. -/
def outcome (m : Machine) (read : Option (List Symbol) := none)
    (transition : Option Transition := none) : Outcome :=
  ⟨m.status, m.steps, m.state, read, transition⟩

/-- The status of a machine that finds no transition for the symbols read. -/
def stuckStatus (m : Machine) (read : List Symbol) : Status :=
  match m.mode with
  | .normal => .halted
  | .strict => .errored ⟨m.state, read⟩

/-- Make a transition for the symbols read. -/
def fire (m : Machine) (read : List Symbol) (t : Transition) :
    Except Breakdown Outcome × Machine :=
  let (tapes, heads, complete) := act m.tapes m.heads t.write t.move
  let m := { m with tapes := tapes, heads := heads }
  if complete then
    let m := { m with
      state := t.next
      steps := m.steps + 1
      status := entryStatus m.program t.next }
    (.ok (m.outcome (some read) (some t)), m)
  else (.error .outOfRange, m)

/-- One step. A machine that has stopped stays as it is. -/
def step (m : Machine) : Except Breakdown Outcome × Machine :=
  match m.status with
  | .running =>
    let m := { m with tapes := reachCells m.tapes m.heads }
    match readCells? m.tapes m.heads with
    | none => (.error .outOfRange, m)
    | some read =>
      match m.program.transition? m.state read with
      | some t => m.fire read t
      | none =>
        let m := { m with status := m.stuckStatus read }
        (.ok (m.outcome (some read)), m)
  | _ => (.ok m.outcome, m)

/-- The symbols under the heads. -/
def currentSymbols (m : Machine) : List Symbol := List.zipWith Tape.peek m.tapes m.heads

/-- The transition that the next step would make. -/
def currentTransition (m : Machine) : Option Transition :=
  if m.isRunning then m.program.transition? m.state m.currentSymbols else none

/-- The symbols for which the current state has transitions. -/
def availableReads (m : Machine) : List (List Symbol) :=
  match m.program.state? m.state with
  | some s => s.transitions.keys
  | none => []

/-- The machine in a few words. -/
def display (m : Machine) : String :=
  "Machine(state=" ++ Text.quoted m.state ++ ", status=" ++ m.status.text ++ ", steps=" ++
    toString m.steps ++ ", mode=" ++ m.mode.text ++ ")"

end Machine

end TapeLang
