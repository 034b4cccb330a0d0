import TapeLang.Text.Digit
import TapeLang.Text.Quoted

/-!
# Options on a command line

An argument that begins with a hyphen is an option, unless it is a hyphen alone, looks like a negative
number, or holds a space. Long options may be abbreviated as long as only one fits, and take a value
after an equals sign or as the next argument; short options may be run together, and take a value
that follows directly. After `--` every argument is plain; in the place of a value, joined to its
option, `--` stands for no value.

* `Opt`: an option with its names and the number of values that it takes.
* `Piece`, `classify`: an argument and what it is.
* `Event`: an option or a plain argument that has been recognised.
* `readArgs`: the events of a command line, the arguments left over, and what went wrong.
-/

namespace TapeLang.CommandLine

/-- What an option is about. -/
inductive Key where
  | help
  | version
  | verbose
  | format
  | suppress
  | output
  | strict
  | maxSteps
  | input
  | trace
  deriving DecidableEq, Repr

/-- How many values an option takes. -/
inductive Takes where
  | nothing
  | one
  | several
  deriving DecidableEq, Repr

/-- An option. -/
structure Opt where
  key : Key
  names : List String
  takes : Takes := .nothing
  deriving DecidableEq, Repr

/-- The names of an option in an error message. -/
def Opt.label (o : Opt) : String := "/".intercalate o.names

/-- What the plain arguments are for. -/
inductive Positional where
  /-- The first is a file. -/
  | file
  /-- The first is a command, and all that follow, options too, are for the command. -/
  | command
  deriving DecidableEq, Repr

/-- An argument, classified. -/
inductive Piece where
  | plain (text : String)
  /-- The argument `--`. -/
  | dashes
  /-- An option: the argument, the option that it names if there is one, the name by which it does so,
  and the value in the same argument. -/
  | option (raw : String) (o : Option Opt) (name : String) (value : Option String)
  deriving Repr

namespace Piece

/-- The argument. -/
def text : Piece → String
  | .plain s => s
  | .dashes => "--"
  | .option raw _ _ _ => raw

/-- Whether the argument is an option. -/
def isOption : Piece → Bool
  | .option .. => true
  | _ => false

/-- The argument, if it is a plain one. -/
def plain? : Piece → Option String
  | .plain s => some s
  | _ => none

end Piece

/-- The option of a given name. -/
def findOpt? (opts : List Opt) (name : String) : Option Opt := opts.find? fun o => o.names.contains name

/-- A text cut at its first equals sign. -/
def cutEquals (s : String) : String × Option String :=
  match s.toList.dropWhile (· != '=') with
  | [] => (s, none)
  | _ :: rest => (String.ofList (s.toList.takeWhile (· != '=')), some (String.ofList rest))

/-- Every name of every option. -/
def namedOpts (opts : List Opt) : List (String × Opt) :=
  opts.flatMap fun o => o.names.map fun name => (name, o)

/-- The options that an argument may abbreviate. A long one is compared up to the equals sign; a short
one is followed by its value. -/
def candidates (opts : List Opt) (arg : String) : List Piece :=
  if "--".toList.isPrefixOf arg.toList then
    let (start, value) := cutEquals arg
    (namedOpts opts).filterMap fun (name, o) =>
      if start.toList.isPrefixOf name.toList then
        some (.option arg (some o) name value)
      else none
  else
    let short := String.ofList (arg.toList.take 2)
    (namedOpts opts).filterMap fun (name, o) =>
      if name == short then
        some (.option arg (some o) name (some (String.ofList (arg.toList.drop 2))))
      else if arg.toList.isPrefixOf name.toList then some (.option arg (some o) name none)
      else none

/-- Whether an argument is a hyphen and a decimal number; a line feed at the end does not count. -/
def isNegativeNumber (arg : String) : Bool :=
  match arg.toList with
  | '-' :: digits =>
    let digits := if digits.getLast? = some '\n' then digits.dropLast else digits
    match digits.dropWhile Text.isDigit with
    | [] => !digits.isEmpty
    | '.' :: fraction => !fraction.isEmpty && fraction.all Text.isDigit
    | _ => false
  | _ => false

/-- The name of an option piece. -/
def pieceName : Piece → String
  | .option _ _ name _ => name
  | p => p.text

/-- What an argument before `--` is. -/
def classify (opts : List Opt) (arg : String) : Except String Piece :=
  let exact := findOpt? opts arg
  let (start, value) := cutEquals arg
  if !("-".toList.isPrefixOf arg.toList) then .ok (.plain arg)
  else if exact.isSome then .ok (.option arg exact arg none)
  else if arg.length = 1 then .ok (.plain arg)
  else
    match value, findOpt? opts start with
    | some v, some o => .ok (.option arg (some o) start (some v))
    | _, _ =>
      match candidates opts arg with
      | [piece] => .ok piece
      | [] =>
        if isNegativeNumber arg || arg.toList.contains ' ' then .ok (.plain arg)
        else .ok (.option arg none arg none)
      | pieces =>
        .error ("ambiguous option: " ++ arg ++ " could match " ++
          ", ".intercalate (pieces.map pieceName))

/-- What the arguments are. -/
def classifyAll (opts : List Opt) : List String → Except String (List Piece)
  | [] => .ok []
  | "--" :: args => .ok (.dashes :: args.map .plain)
  | arg :: args => do return (← classify opts arg) :: (← classifyAll opts args)

/-- An option with its values, or the plain arguments that have been taken. -/
inductive Event where
  | option (o : Opt) (values : List String)
  | positional (args : List String)
  deriving Repr

/-- What has been read of a command line. -/
structure Reading where
  events : List Event := []
  /-- The arguments for which there is no use. -/
  extras : List String := []
  /-- What ended the reading. -/
  failure : Option String := none
  deriving Repr

/-- The complaint about an option. -/
def complain (o : Opt) (message : String) : String := "argument " ++ o.label ++ ": " ++ message

/-- The complaint about a value for an option that takes none. -/
def ignored (o : Opt) (value : String) : String :=
  complain o ("ignored explicit argument " ++ Text.quoted value)

/-- The values that an option has from the text joined to it. -/
def joinedValues (value : List Char) : List String :=
  if value = ['-', '-'] then [] else [String.ofList value]

/-- The options that are run together in one argument, where `name` names the option `o` and `value`
is what follows it, after an equals sign or directly. The last of them may still want its values from
the arguments that follow. -/
def cluster (opts : List Opt) (o : Opt) (name : String) (value : List Char) :
    Except String (List Event × Option Opt) :=
  if o.takes ≠ .nothing then .ok ([.option o (joinedValues value)], none)
  else if "--".toList.isPrefixOf name.toList then .error (ignored o (String.ofList value))
  else
    match value with
    | [] => .error (ignored o "")
    | c :: rest =>
      let short := String.ofList ['-', c]
      match findOpt? opts short, rest with
      | none, _ => .error (ignored o (String.ofList (c :: rest)))
      | some next, [] => .ok ([.option o []], some next)
      | some next, rest => do
        let (events, last) ← cluster opts next short rest
        return (.option o [] :: events, last)
  termination_by value.length

/-- The values of an option among the arguments that follow it, and the rest of these. -/
def takeValues (o : Opt) (pieces : List Piece) : Except String (List String × List Piece) :=
  match o.takes with
  | .nothing => .ok ([], pieces)
  | .one =>
    match pieces with
    | .plain s :: rest => .ok ([s], rest)
    | _ => .error (complain o "expected one argument")
  | .several =>
    match pieces.takeWhile fun p => p.plain?.isSome with
    | [] => .error (complain o "expected at least one argument")
    | taken => .ok (taken.map Piece.text, pieces.drop taken.length)

/-- Read an option and its values. The result holds the events and the arguments that follow. -/
def readOption (opts : List Opt) (o : Opt) (name : String) (value : Option String)
    (rest : List Piece) : Except String (List Event × List Piece) := do
  let (events, last) ←
    match value with
    | none => pure ([], some o)
    | some v => cluster opts o name v.toList
  match last with
  | none => return (events, rest)
  | some o =>
    let (values, rest) ← takeValues o rest
    return (events ++ [.option o values], rest)

/-- Take the plain arguments at the beginning: a file with an adjacent `--`, or a command with
everything behind it. -/
def takePositional (kind : Positional) : List Piece → Option (List String × List Piece)
  | .dashes :: .plain s :: rest =>
    match kind with
    | .file => some ([s], rest)
    | .command => some ("--" :: s :: rest.map Piece.text, [])
  | .plain s :: rest =>
    match kind, rest with
    | .file, .dashes :: rest => some ([s], rest)
    | .file, rest => some ([s], rest)
    | .command, rest => some (s :: rest.map Piece.text, [])
  | _ => none

/-- Read pieces in turn; `fuel` bounds their number, and `awaiting` says whether the plain arguments are
still to come. -/
def readPieces (opts : List Opt) (kind : Positional) :
    Nat → Bool → List Piece → Reading → Reading
  | 0, _, _, r => r
  | fuel + 1, awaiting, pieces, r =>
    match pieces with
    | .option raw o name value :: rest =>
      match o with
      | none => readPieces opts kind fuel awaiting rest { r with extras := r.extras ++ [raw] }
      | some o =>
        match readOption opts o name value rest with
        | .error message => { r with failure := some message }
        | .ok (events, rest) =>
          readPieces opts kind fuel awaiting rest { r with events := r.events ++ events }
    | pieces =>
      match if awaiting then takePositional kind pieces else none with
      | some (args, rest) =>
        readPieces opts kind fuel false rest { r with events := r.events ++ [.positional args] }
      | none =>
        let left := pieces.takeWhile fun p => !p.isOption
        let rest := pieces.drop left.length
        let r := { r with extras := r.extras ++ left.map Piece.text }
        if rest.isEmpty then r else readPieces opts kind fuel awaiting rest r

/-- Read a command line. -/
def readArgs (opts : List Opt) (kind : Positional) (args : List String) : Reading :=
  match classifyAll opts args with
  | .error message => { failure := some message }
  | .ok pieces => readPieces opts kind (pieces.length + 1) true pieces {}

end TapeLang.CommandLine
