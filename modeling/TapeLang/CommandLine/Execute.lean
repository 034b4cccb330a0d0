import TapeLang.Ast.Dump
import TapeLang.CommandLine.Disk
import TapeLang.CommandLine.Request
import TapeLang.Compilation
import TapeLang.Machine.Run

/-!
# Carrying out a request

The commands as functions from a command line and a disk to what is printed and written.

* `Console`: what has been printed so far.
* `Ending`: what a command line comes to.
* `execute`: carry out a command line.
-/

namespace TapeLang.CommandLine

/-- What has been printed, and which notes are shown. -/
structure Console where
  verbosity : Nat := 0
  /-- The time of day in front of a note. -/
  clock : String := ""
  out : String := ""
  err : String := ""

namespace Console

/-- Print to the standard output. -/
def print (c : Console) (s : String) : Console := { c with out := c.out ++ s }

/-- Print to the standard error output. -/
def printErr (c : Console) (s : String) : Console := { c with err := c.err ++ s }

/-- The least urgent level that is shown. -/
def threshold (c : Console) : Level :=
  match c.verbosity with
  | 0 => .warning
  | 1 => .info
  | _ => .debug

/-- Show a note, if it is urgent enough. -/
def log (c : Console) (r : LogRecord) : Console :=
  if c.threshold.rank ≤ r.level.rank then c.printErr (r.stamped c.clock ++ "\n") else c

/-- Show notes in turn. -/
def logAll (c : Console) (rs : List LogRecord) : Console := rs.foldl log c

/-- Show a note of the program itself. -/
def say (c : Console) (level : Level) (message : String) : Console :=
  c.log ⟨level, "turlang", message⟩

end Console

/-- What a command line comes to. -/
structure Ending where
  console : Console
  code : Nat
  /-- Whether the command line was answered by usage, help or version alone. -/
  byUsage : Bool := false
  /-- The file to be written. -/
  written : Option (Path × String) := none

namespace Console

/-- End with a code. -/
def done (c : Console) (code : Nat) : Ending := { console := c, code := code }

/-- End because of something that the commands do not handle. -/
def unhandled (c : Console) (cause : String) : Ending :=
  (c.say .error ("Unhandled exception: " ++ cause)).done 2

end Console

/-- The text of a file: UTF-8, with unified line breaks. -/
def decodeText? (bytes : ByteArray) : Option (List Char) :=
  (String.fromUTF8? bytes).map fun s => Text.unifyBreaks s.toList

/-- The source file of a request: its path and its text. -/
def openSource (c : Console) (d : Disk) (name : String) (load : Path → List LogRecord) :
    Except Ending (Console × Path × List Char) :=
  match d.resolve? name with
  | none => .error (c.unhandled "the path cannot be resolved")
  | some path =>
    match d.lookup path with
    | .tooLong => .error (c.unhandled "the path is too long")
    | .absent => .error ((c.say .error ("source file not found: " ++ path.text)).done 2)
    | .file bytes =>
      let c := c.logAll (load path)
      match decodeText? bytes with
      | none => .error (c.unhandled "the source is not valid UTF-8")
      | some text => .ok (c, path, text)

/-- Print a text to the standard output, or have it written to a file. -/
def deliver (c : Console) (d : Disk) (output : Given String) (text : String) (code : Nat) : Ending :=
  match output with
  | .missing => (c.print text).done code
  | .empty => c.unhandled "the output file has no name"
  | .value "-" => (c.print text).done code
  | .value name =>
    match d.resolve? name with
    | none => c.unhandled "the path cannot be resolved"
    | some path =>
      if d.canWrite path then { c.done code with written := some (path, text) }
      else c.unhandled "the output file cannot be written"

/-- End with a report. -/
def endWithReport (c : Console) (format : Format) (r : Report) : Ending :=
  match format with
  | .json => (c.print ((Json.obj [("error", r.toJson)]).pretty ++ "\n")).done 1
  | .text => (c.printErr (r.text ++ "\n")).done 1

/-- End because a text could not be read. -/
def endWithReadError (c : Console) (format : Format) : ReadError → Ending
  | .refused e => endWithReport c format e.report
  | .badNumeral _ => c.unhandled "a head position is not a readable number"
  | .homeless => c.unhandled "a line belongs to no block"

/-- End because a text yields no program. -/
def endWithCompileError (c : Console) (format : Format) : CompileError → Ending
  | .read e => endWithReadError c format e
  | .build e =>
    match e.report? with
    | some r => endWithReport c format r
    | none => c.unhandled e.message

/-- Diagnostics, one a line. -/
def diagnosticLines (ds : List Diagnostic) : String := unlines (ds.map Diagnostic.text)

/-- The note that a file is being read. -/
def loadingRecord (path : Path) : LogRecord := ⟨.debug, "turlang.compiler", "Loading " ++ path.text⟩

/-- The program and the diagnostics of a source file, less those with the given identifiers. A missing
identifier is noticed once the program has been built. -/
def loadSource (c : Console) (d : Disk) (r : Request) (suppress : List (Option String))
    (format : Format) : Except Ending (Console × Path × Compiled) := do
  let (c, path, text) ← openSource c d r.file fun path => [loadingRecord path]
  match suppress.mapM id with
  | some ids =>
    let (log, result) := compile text path.text ids
    let c := c.logAll log
    match result with
    | .error e => .error (endWithCompileError c format e)
    | .ok compiled => return (c, path, compiled)
  | none =>
    let (log, result) := compileProgram text path.text
    let c := c.logAll log
    match result with
    | .error e => .error (endWithCompileError c format e)
    | .ok _ => .error (c.unhandled "an identifier to be suppressed is missing")

/-- Analyse a program and print its diagnostics. -/
def check (c : Console) (d : Disk) (r : Request) : Ending :=
  match loadSource c d r r.settings.suppress r.settings.format with
  | .error ending => ending
  | .ok (c, path, compiled) =>
    let ds := compiled.diagnostics
    let count := (Diagnostic.errors ds).length
    let text :=
      match r.settings.format with
      | .json =>
        (Json.obj [
          ("file", .str path.text),
          ("diagnostics", .arr (ds.map Diagnostic.toJson))]).pretty ++ "\n"
      | .text =>
        diagnosticLines ds ++ "--- " ++ toString ds.length ++ " diagnostic(s), " ++
          toString count ++ " error(s) ---\n"
    deliver c d r.settings.output text (if 0 < count then 1 else 0)

/-- Read a program and print a summary of its syntax tree. -/
def parseFile (c : Console) (d : Disk) (r : Request) : Ending :=
  match openSource c d r.file fun _ => [] with
  | .error ending => ending
  | .ok (c, path, text) =>
    match TapeLang.parse text path.text with
    | .error e => endWithReadError c .text e
    | .ok tree =>
      let c := c.log (parsedRecord path.text tree)
      deliver c d r.settings.output (tree.toJson.pretty ++ "\n") 0

/-- The contents of a tape as the command `run` prints them: without blanks at the ends. -/
def printedTape (blank : Symbol) (text : String) : String :=
  String.ofList (Text.dropEnds (blank.toList.contains ·) text.toList)

/-- Print the final tapes and how the machine has ended. -/
def finish (c : Console) (m : Machine) : Ending :=
  let snap := m.snapshot
  let c := c.print (unlines (snap.tapeTexts.map (printedTape m.program.blank)))
  let after := " after " ++ toString snap.steps ++ " step(s)"
  match snap.status with
  | .errored cause =>
    (c.printErr ("error: " ++ cause.message ++ " (after " ++ toString snap.steps ++
      " step(s))\n")).done 1
  | .running =>
    (c.printErr ("stopped in state '" ++ snap.state ++ "'" ++ after ++
      ": step limit reached\n")).done 0
  | .halted => (c.printErr ("halted in state '" ++ snap.state ++ "'" ++ after ++ "\n")).done 0

/-- Run a machine and print what becomes of it. There is no ending if it is still running after
`patience` steps and nothing limits their number. -/
def runMachine (c : Console) (m : Machine) (trace : Bool) (patience : Nat) : Option Ending :=
  let cap := m.config.maxSteps
  let ended (m : Machine) : Bool := !m.isRunning || cap.isSome
  if trace then
    let blank := m.program.blank
    let r := m.trace cap none patience
    match r.result with
    | .error _ => some ((c.logAll r.log.reverse).unhandled "the program is malformed")
    | .ok shots =>
      let c := c.print (unlines ((m.snapshot :: shots).map fun s => s.line blank))
      if ended r.machine then some (finish (c.logAll r.log.reverse) r.machine) else none
  else
    let r := m.run none none patience
    match r.result with
    | .error _ => some ((c.logAll r.log.reverse).unhandled "the program is malformed")
    | .ok _ => if ended r.machine then some (finish (c.logAll r.log.reverse) r.machine) else none

/-- The program on the input that the command line gives, if it gives any. -/
def withInput (p : Program) (rows : List String) : Except InputError Program :=
  if rows.isEmpty then .ok p
  else p.withTapes (rows.map fun row => row.toList.map String.singleton)

/-- Run a program with at most the given number of steps. -/
def runProgram (c : Console) (path : Path) (p : Program) (cap : Option Int) (settings : Settings)
    (patience : Nat) : Option Ending :=
  let mode : Mode := if settings.strict then .strict else .normal
  let m := Machine.start p mode { maxSteps := cap }
  let c := (c.logAll m.startNotes).say .info
    ("Running " ++ p.name.getD (path.getLastD "") ++ " (" ++ mode.text ++ " mode)")
  runMachine c m settings.trace patience

/-- Run a program, unless its analysis reports errors. -/
def run (c : Console) (d : Disk) (r : Request) (patience : Nat) : Option Ending :=
  match loadSource c d r [] .text with
  | .error ending => some ending
  | .ok (c, path, compiled) =>
    let c := c.printErr (diagnosticLines compiled.diagnostics)
    if Diagnostic.hasErrors compiled.diagnostics then
      some ((c.say .error ("Refusing to run " ++ path.text ++
        ": analysis reported errors")).done 1)
    else
      match withInput compiled.program r.settings.input with
      | .error e => some ((c.say .error ("Invalid --input: " ++ e.message)).done 2)
      | .ok program =>
        match r.settings.maxSteps with
        | .missing => runProgram c path program none r.settings patience
        | .empty => some (c.unhandled "the number of steps is missing")
        | .value n => runProgram c path program (some n) r.settings patience

/-- Carry out a command line. There is no ending if it asks for a run that nothing limits and that
does not end within `patience` steps. -/
def execute (d : Disk) (clock : String) (patience : Nat) (args : List String) : Option Ending :=
  match ask args with
  | .text s => some { Console.done { out := s } 0 with byUsage := true }
  | .misuse complaint => some { Console.done { err := complaint } 2 with byUsage := true }
  | .nothing => some (Console.done { err := programHelp } 2)
  | .request r =>
    let c : Console := { verbosity := r.settings.verbosity, clock := clock }
    match r.command with
    | .check => some (check c d r)
    | .parse => some (parseFile c d r)
    | .run => run c d r patience

end TapeLang.CommandLine
