import TapeLang.Log
import TapeLang.Machine.Snapshot

/-!
# Runs

A run makes steps until the machine stops or a limit is reached. What nothing limits is tried for a
given number of steps, the patience.

* `Machine.runFrom`, `Machine.run`: a run, with its last outcome and the notes made on the way.
* `Machine.traceFrom`, `Machine.trace`: a run that takes a snapshot after every step.
-/

namespace TapeLang

/-- The end of a run: the machine, the result, and the notes made on the way, last first. -/
structure Run (α : Type) where
  machine : Machine
  result : Except Breakdown α
  log : List LogRecord

namespace Machine

/-- A note of a machine. -/
def note (level : Level) (message : String) : LogRecord := ⟨level, "turlang.machine", message⟩

/-- The note on a machine that starts in a state without transitions. -/
def resetNotes (m : Machine) : List LogRecord :=
  if m.isRunning then []
  else
    [note .debug ("Start state " ++ Text.quoted m.state ++
      " has no transitions; machine is halted")]

/-- The notes on a machine that has just been set up. -/
def startNotes (m : Machine) : List LogRecord :=
  (m.config.warnings.map fun w => note .warning ("MachineConfig: " ++ w)) ++ m.resetNotes

/-- Positions in square brackets. -/
def headsText (heads : List Int) : String := "[" ++ ", ".intercalate (heads.map toString) ++ "]"

/-- The notes on a step, given its outcome and the machine after it. -/
def stepNotes (m : Machine) (o : Outcome) : List LogRecord :=
  match o.read, o.transition, o.status with
  | none, _, _ => []
  | some _, none, .errored cause =>
    [note .debug ("Machine errored after " ++ toString o.steps ++ " step(s): " ++ cause.message)]
  | some read, none, _ =>
    [note .debug ("No transition from " ++ Text.quoted o.state ++ " reading " ++
      Text.quotedTuple read ++ "; halted after " ++ toString o.steps ++ " step(s)")]
  | some _, some _, .running =>
    if m.config.logEvery ≠ 0 ∧ (o.steps : Int) % m.config.logEvery = 0 then
      [note .debug ("Step " ++ toString o.steps ++ ": state=" ++ Text.quoted o.state ++
        " heads=" ++ headsText m.heads)]
    else []
  | some _, some _, _ =>
    [note .debug ("Reached halt state " ++ Text.quoted o.state ++ " after " ++ toString o.steps ++
      " step(s)")]

/-- Whether a run that has made `taken` steps has reached its cap. -/
def capReached (cap : Option Int) (taken : Nat) : Bool := cap.any (· ≤ (taken : Int))

/-- The note on a run that has reached its cap. -/
def capNotes (m : Machine) (cap : Option Int) : List LogRecord :=
  cap.toList.map fun c =>
    note .debug ("Step cap of " ++ toString c ++ " reached in state " ++ Text.quoted m.state)

/-- Go on with a run that has made `taken` steps, the last of them with the outcome `last`. Before each
step the machine has to be running, the cap must not be reached, and the caller is asked whether to stop:
`stop i` is the answer after `i` steps. No more than `patience` steps are made. -/
def runFrom (cap : Option Int) (stop : Nat → Bool) (patience taken : Nat) (m : Machine)
    (last : Outcome) (log : List LogRecord) : Run Outcome :=
  if m.isRunning then
    if capReached cap taken then ⟨m, .ok last, m.capNotes cap ++ log⟩
    else if stop taken then ⟨m, .ok last, log⟩
    else
      match patience with
      | 0 => ⟨m, .ok last, log⟩
      | patience + 1 =>
        match m.step with
        | (.error e, m) => ⟨m, .error e, log⟩
        | (.ok o, m) =>
          runFrom cap stop patience (taken + 1) m o ((m.stepNotes o).reverse ++ log)
  else ⟨m, .ok last, log⟩

/-- Run until the machine stops, the cap is reached or the caller wants it to stop. `cap` takes the place
of the cap of the configuration. -/
def runUntil (m : Machine) (cap : Option Int) (stop : Nat → Bool) (patience : Nat) : Run Outcome :=
  runFrom (cap.or m.config.maxSteps) stop patience 0 m m.outcome []

/-- The number of steps that limits allow, and `patience` if there is no limit. -/
def budget (cap : Option Int) (polls : Option Nat) (patience : Nat) : Nat :=
  match cap, polls with
  | some c, some k => min c.toNat k
  | some c, none => c.toNat
  | none, some k => k
  | none, none => patience

/-- Run until the machine stops, for a caller who lets it go on `polls` times. -/
def run (m : Machine) (cap : Option Int := none) (polls : Option Nat := none)
    (patience : Nat := 0) : Run Outcome :=
  m.runUntil cap (fun taken => polls.any (· ≤ taken))
    (budget (cap.or m.config.maxSteps) polls patience)

/-- Go on with a trace that has made `taken` steps. At each of the `requests` for a snapshot the machine
has to be running and the cap must not be reached; then it makes a step and is looked at. `shots` are the
snapshots so far, last first. -/
def traceFrom (cap : Option Int) :
    Nat → Nat → Machine → List Snapshot → List LogRecord → Run (List Snapshot)
  | 0, _, m, shots, log => ⟨m, .ok shots.reverse, log⟩
  | requests + 1, taken, m, shots, log =>
    if m.isRunning then
      if capReached cap taken then ⟨m, .ok shots.reverse, log⟩
      else
        match m.step with
        | (.error e, m) => ⟨m, .error e, log⟩
        | (.ok o, m) =>
          traceFrom cap requests (taken + 1) m (m.snapshot :: shots) ((m.stepNotes o).reverse ++ log)
    else ⟨m, .ok shots.reverse, log⟩

/-- The snapshots after every step, until the machine stops or `cap` steps have been made. `take` is the
number of snapshots that are asked for, if not all of them are. -/
def trace (m : Machine) (cap : Option Int := none) (take : Option Nat := none)
    (patience : Nat := 0) : Run (List Snapshot) :=
  traceFrom cap (take.getD (budget cap none patience)) 0 m [] []

end Machine

end TapeLang
