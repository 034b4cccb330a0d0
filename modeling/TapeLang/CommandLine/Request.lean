import TapeLang.CommandLine.Options
import TapeLang.CommandLine.Usage

/-!
# What a command line asks for

* `Command`: the commands, with their options.
* `Given`: the value of an option.
* `Request`: a command with its settings.
* `Asked`, `ask`: what a command line asks for, or how it is misused.
-/

namespace TapeLang.CommandLine

/-- A command of the program. -/
inductive Command where
  | check
  | parse
  | run
  deriving DecidableEq, Repr

/-- The form in which diagnostics are printed. -/
inductive Format where
  | text
  | json
  deriving DecidableEq, Repr

/-- The value of an option, which may be left out, and may be given without a value. -/
inductive Given (α : Type) where
  /-- The option is left out. -/
  | missing
  /-- The option is given without a value. -/
  | empty
  | value (a : α)
  deriving DecidableEq, Repr

/-- What the options and arguments of a command line say. -/
structure Settings where
  verbosity : Nat := 0
  file : Option String := none
  format : Format := .text
  /-- The identifiers to be suppressed, `none` for each option without a value. -/
  suppress : List (Option String) := []
  output : Given String := .missing
  strict : Bool := false
  maxSteps : Given Int := .missing
  /-- The tapes that replace those of the program; no tapes replace nothing. -/
  input : List String := []
  trace : Bool := false
  deriving DecidableEq, Repr

/-- The option that asks for help. -/
def helpOpt : Opt := { key := .help, names := ["-h", "--help"] }

/-- The options of the program. -/
def programOpts : List Opt :=
  [helpOpt, { key := .version, names := ["--version"] },
    { key := .verbose, names := ["-v", "--verbose"] }]

/-- The option that names an output file. -/
def outputOpt : Opt := { key := .output, names := ["-o", "--output"], takes := .one }

namespace Command

/-- All commands. -/
def all : List Command := [.check, .parse, .run]

/-- The name of a command. -/
def text : Command → String
  | .check => "check"
  | .parse => "parse"
  | .run => "run"

/-- The options of a command. -/
def opts : Command → List Opt
  | .check =>
    [helpOpt, { key := .format, names := ["--format"], takes := .one },
      { key := .suppress, names := ["--suppress"], takes := .one }, outputOpt]
  | .parse => [helpOpt, outputOpt]
  | .run =>
    [helpOpt, { key := .strict, names := ["--strict"] },
      { key := .maxSteps, names := ["--max-steps"], takes := .one },
      { key := .input, names := ["--input"], takes := .several },
      { key := .trace, names := ["--trace"] }]

/-- The usage of a command. -/
def usage : Command → String
  | .check => checkUsage
  | .parse => parseUsage
  | .run => runUsage

/-- The help of a command. -/
def help : Command → String
  | .check => checkHelp
  | .parse => parseHelp
  | .run => runHelp

end Command

/-- A command with the file that it is about and its settings. -/
structure Request where
  command : Command
  file : String
  settings : Settings
  deriving DecidableEq, Repr

/-- What a command line asks for. -/
inductive Asked where
  /-- A text to be shown: help or version. -/
  | text (s : String)
  /-- Nothing that can be done: the usage and a complaint. -/
  | misuse (complaint : String)
  /-- No command at all. -/
  | nothing
  | request (r : Request)
  deriving Repr

/-- The complaint about a command line, behind the usage; `none` stands for the program itself. -/
def misuse (c : Option Command) (message : String) : Asked :=
  match c with
  | none => .misuse (programUsage ++ "turlang: error: " ++ message ++ "\n")
  | some c => .misuse (c.usage ++ "turlang " ++ c.text ++ ": error: " ++ message ++ "\n")

/-- The complaint about a value that is not among the choices. -/
def invalidChoice (label value : String) (choices : List String) : String :=
  "argument " ++ label ++ ": invalid choice: " ++ Text.quoted value ++ " (choose from " ++
    Text.quotedItems choices ++ ")"

/-- A positive number of steps. -/
def positiveInt (o : Opt) (value : String) : Except String Int :=
  match Text.integer? value.toList with
  | none => .error (complain o ("invalid _positive_int value: " ++ Text.quoted value))
  | some n =>
    if n ≤ 0 then .error (complain o ("must be a positive integer, got " ++ value)) else .ok n

/-- The settings with an option taken into account. The program's own options have no command. -/
def Settings.apply (s : Settings) (c : Option Command) (o : Opt) (values : List String) :
    Except Asked Settings :=
  match o.key with
  | .help => .error (.text ((c.map Command.help).getD programHelp))
  | .version => .error (.text versionText)
  | .verbose => .ok { s with verbosity := s.verbosity + 1 }
  | .format =>
    match values.head? with
    | none => .ok { s with format := .text }
    | some "text" => .ok { s with format := .text }
    | some "json" => .ok { s with format := .json }
    | some value => .error (misuse c (invalidChoice o.label value ["text", "json"]))
  | .suppress => .ok { s with suppress := s.suppress ++ [values.head?] }
  | .output => .ok { s with output := (values.head?.map Given.value).getD .empty }
  | .strict => .ok { s with strict := true }
  | .maxSteps =>
    match values.head? with
    | none => .ok { s with maxSteps := .empty }
    | some value =>
      match positiveInt o value with
      | .error message => .error (misuse c message)
      | .ok n => .ok { s with maxSteps := .value n }
  | .input => .ok { s with input := values }
  | .trace => .ok { s with trace := true }

/-- The settings with the events of a command's arguments taken into account. -/
def Settings.applyAll (c : Command) : List Event → Settings → Except Asked Settings
  | [], s => .ok s
  | .option o values :: events, s => do applyAll c events (← s.apply (some c) o values)
  | .positional args :: events, s => applyAll c events { s with file := args.head? }

/-- The request of a command's arguments, with the arguments left over. -/
def readCommand (c : Command) (s : Settings) (args : List String) :
    Except Asked (Request × List String) := do
  let r := readArgs c.opts .file args
  let s ← s.applyAll c r.events
  match r.failure, s.file with
  | some message, _ => .error (misuse (some c) message)
  | none, none => .error (misuse (some c) "the following arguments are required: FILE")
  | none, some file => return (⟨c, file, s⟩, r.extras)

/-- What the events of the whole command line ask for, with the arguments left over by a command. -/
def readProgram : List Event → Settings → Option (Request × List String) →
    Except Asked (Option (Request × List String))
  | [], _, request => .ok request
  | .option o values :: events, s, request => do
    readProgram events (← s.apply none o values) request
  | .positional args :: events, s, _ => do
    let name := args.headD ""
    match Command.all.find? fun c => c.text = name with
    | none => .error (misuse none (invalidChoice "<command>" name (Command.all.map Command.text)))
    | some c => readProgram events s (some (← readCommand c s args.tail))

/-- What a command line asks for. -/
def ask (args : List String) : Asked :=
  let r := readArgs programOpts .command args
  match readProgram r.events {} none with
  | .error asked => asked
  | .ok request =>
    match r.failure with
    | some message => misuse none message
    | none =>
      let extras := r.extras ++ (request.map Prod.snd).getD []
      if extras.isEmpty then (request.map fun x => Asked.request x.1).getD .nothing
      else misuse none ("unrecognized arguments: " ++ " ".intercalate extras)

end TapeLang.CommandLine
