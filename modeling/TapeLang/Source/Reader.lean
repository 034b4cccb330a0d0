import TapeLang.Log
import TapeLang.Source.LineRule
import TapeLang.Source.Violation

/-!
# Reading a program

The logical lines of a text are fed one by one to a `Reader`, which keeps the stack of open blocks. A
header line (`tapes:`, `rules:`, or the name of a state) leaves its block pending; the next line opens
the block if it is indented deeper.

* `Block`: the kinds of blocks.
* `Reader`, `Reader.feed`: what has been read, and one more line.
* `Reader.finish`: the tree, once all lines have been read.
* `parse`: the tree of a text.
-/

namespace TapeLang

/-- A kind of block. -/
inductive Block where
  /-- The directives, outside every indented block. -/
  | top
  /-- The rows below `tapes:`. -/
  | tapes
  /-- The state headers below `rules:`. -/
  | rules
  /-- The transitions below a state header. -/
  | state
  deriving DecidableEq, Repr

/-- What has been read of a program. -/
structure Reader where
  file : String
  indents : IndentStack := {}
  /-- The open blocks, innermost first. -/
  contexts : List Block := [.top]
  /-- A block whose header has just been read, with the header. -/
  pending : Option (Block × Line) := none
  /-- The directives so far, last first. -/
  seen : List (Directive × Line) := []
  name : Option Ast.NameDecl := none
  tape : Option Ast.TapeDecl := none
  /-- The rows below `tapes:`, last first. -/
  rows : List (List Ast.Symbol) := []
  head : Option Ast.HeadDecl := none
  blank : Option Ast.BlankDecl := none
  /-- The finished states, last first. -/
  states : List Ast.State := []
  /-- The state whose block is being read, with its transitions last first. -/
  current : Option Ast.State := none
  deriving Repr

namespace Reader

/-- The location of the content of a line. -/
def locate (r : Reader) (line : Line) : Location := ⟨r.file, line.number, line.column⟩

/-- The location of position `n` in a text that begins after `offset` characters of the line. -/
def here (r : Reader) (line : Line) (offset n : Nat) : Location :=
  ⟨r.file, line.number, offset + n + 1⟩

/-- Refuse the text because of a given column of a line. -/
def refuseAt {α : Type} (r : Reader) (line : Line) (column : Nat) (v : Violation) :
    Except ReadError α :=
  .error (.refused ⟨v, r.file, line.number, column, line.raw⟩)

/-- Refuse the text because of a line. -/
def refuse {α : Type} (r : Reader) (line : Line) (v : Violation) : Except ReadError α :=
  r.refuseAt line line.column v

/-- Refuse the text because a part of a line, which begins after `offset` characters, does not
match. -/
def malformed {α : Type} (r : Reader) (line : Line) (offset : Nat) (kind : LineKind)
    (text : List Char) (m : Mismatch) : Except ReadError α :=
  r.refuseAt line (offset + m.pos + 1) (.malformed kind text[m.pos]?)

/-- The value of a part of a line that begins after `offset` characters. -/
def readValue {α : Type} (r : Reader) (line : Line) (offset : Nat) (kind : LineKind)
    (p : Pattern α) (text : List Char) : Except ReadError α :=
  match p.parse text with
  | .ok value => .ok value
  | .error m => r.malformed line offset kind text m

/-- The number of a head position. -/
def readIndex (digits : List Char) : Except ReadError Int :=
  match Text.numeral? digits with
  | some n => .ok n
  | none => .error (.badNumeral digits)

/-- The line on which a directive was declared. -/
def seenLine? (r : Reader) (d : Directive) : Option Line :=
  (r.seen.find? fun e => e.1 = d).map Prod.snd

/-- Close a header that is not followed by an indented line. A state may be empty, the other blocks
may not. -/
def settle (r : Reader) : Except ReadError Reader :=
  match r.pending with
  | some (.tapes, header) => r.refuse header .emptyTapes
  | some (.rules, header) => r.refuse header .emptyRules
  | _ => .ok { r with pending := none }

/-- Add the state whose block was being read to the finished ones. -/
def flush (r : Reader) : Reader :=
  match r.current with
  | none => r
  | some s =>
    { r with
      states := { s with transitions := s.transitions.reverse } :: r.states
      current := none }

/-- Close the blocks that do not contain a line with the given indentation. -/
def leave (r : Reader) (line : Line) : Except ReadError Reader := do
  let r ← r.settle
  if r.indents.isDeeper line.indent then
    r.refuseAt line 1 .unexpectedIndent
  else
    match r.indents.dedentTo line.indent with
    | .error cause => r.refuseAt line 1 (.inconsistentIndent cause)
    | .ok (closed, indents) =>
      .ok { r with indents := indents, contexts := r.contexts.drop closed }

/-- Open the pending block if the line is indented deeper, and close blocks if not. -/
def enter (r : Reader) (line : Line) : Except ReadError Reader :=
  match r.pending, r.indents.push line.indent with
  | some (block, _), .ok indents =>
    .ok { r with indents := indents, contexts := block :: r.contexts, pending := none }
  | _, _ => r.leave line

/-- A header that opens a block has nothing after its colon. -/
def openBlock (r : Reader) (line : Line) (d : Directive) (block : Block) (offset : Nat)
    (rest : List Char) : Except ReadError Reader :=
  if (Text.trim rest).isEmpty then .ok { r with pending := some (block, line) }
  else r.refuseAt line (offset + (rest.length - (Text.trimStart rest).length) + 1) (.trailingText d)

/-- Read the value `rest` of a directive, which begins after `offset` characters of its line. -/
def declare (r : Reader) (line : Line) (d : Directive) (offset : Nat) (rest : List Char) :
    Except ReadError Reader := do
  let loc := r.locate line
  match d with
  | .name =>
    let text := Text.trim rest
    if text.isEmpty then r.refuse line .missingName
    else return { r with name := some ⟨String.ofList text, loc⟩ }
  | .tape =>
    let row ← r.readValue line offset .tapeValue (LineRule.tapeValue (r.here line offset)) rest
    return { r with tape := some ⟨[row], false, loc⟩ }
  | .tapes => r.openBlock line d .tapes offset rest
  | .head =>
    let digits ← r.readValue line offset .headValue LineRule.headValue rest
    let position ← readIndex digits
    return { r with head := some ⟨[position], false, loc⟩ }
  | .heads =>
    let numerals ← r.readValue line offset .headsValue LineRule.headsValue rest
    let positions ← numerals.mapM readIndex
    return { r with head := some ⟨positions, true, loc⟩ }
  | .blank =>
    let s ← r.readValue line offset .blankValue (LineRule.blankValue (r.here line offset)) rest
    return { r with blank := some ⟨s.spelling.value, loc⟩ }
  | .rules => r.openBlock line d .rules offset rest

/-- Read a line outside every block. -/
def directiveLine (r : Reader) (line : Line) : Except ReadError Reader :=
  let key := line.content.takeWhile (· != ':')
  match line.content.dropWhile (· != ':') with
  | [] => r.refuse line .noDirective
  | _ :: rest =>
    let word := String.ofList (Text.trim key)
    match Directive.ofText? word with
    | none => r.refuse line (.unknownDirective word)
    | some d =>
      match r.seenLine? d with
      | some first => r.refuse line (.repeatedDirective d first.number)
      | none =>
        match d.variants.filter fun v => (r.seenLine? v.1).isSome || (r.seenLine? v.2).isSome with
        | some (one, other) => r.refuse line (.exclusiveDirectives one other)
        | none =>
          { r with seen := (d, line) :: r.seen }.declare line d
            (line.indent.length + key.length + 1) rest

/-- Read a row below `tapes:`. -/
def rowLine (r : Reader) (line : Line) : Except ReadError Reader := do
  let offset := line.indent.length
  let row ← r.readValue line offset .tapeRow (LineRule.tapeRow (r.here line offset)) line.content
  return { r with rows := row :: r.rows }

/-- The state of a given name that has been declared so far. -/
def findState? (r : Reader) (name : String) : Option Ast.State :=
  (r.current.toList ++ r.states).find? fun s => s.name = name

/-- Read a state header below `rules:`. -/
def headerLine (r : Reader) (line : Line) : Except ReadError Reader :=
  match LineRule.stateHeader.parse line.content with
  | .error m =>
    if line.content.contains ',' then r.refuse line .expectedHeader
    else r.malformed line line.indent.length .stateHeader line.content m
  | .ok name =>
    match r.findState? name with
    | some s => r.refuse line (.repeatedState name s.loc.line)
    | none =>
      .ok { r.flush with
        current := some ⟨name, [], r.locate line⟩
        pending := some (.state, line) }

/-- Read a transition below a state header. -/
def transitionLine (r : Reader) (line : Line) : Except ReadError Reader :=
  let offset := line.indent.length
  match (LineRule.transition (r.here line offset)).parse line.content with
  | .error m =>
    if line.content.getLast? = some ':' ∧ !line.content.contains ',' then
      r.refuse line .misplacedHeader
    else r.malformed line offset .transition line.content m
  | .ok t =>
    match t.vectorViolation?, r.current with
    | some v, _ => r.refuse line v
    | none, some s => .ok { r with current := some { s with transitions := t :: s.transitions } }
    | none, none => .error .homeless

/-- Read one more line. -/
def feed (r : Reader) (line : Line) : Except ReadError Reader := do
  let r ← r.enter line
  match r.contexts with
  | .top :: _ => r.directiveLine line
  | .tapes :: _ => r.rowLine line
  | .rules :: _ => r.headerLine line
  | .state :: _ => r.transitionLine line
  | [] => .error .homeless

/-- Read lines in turn. -/
def feedAll (r : Reader) : List Line → Except ReadError Reader
  | [] => .ok r
  | line :: lines => do (← r.feed line).feedAll lines

/-- Refuse the text as a whole. -/
def refuseWhole {α : Type} (file : String) (v : Violation) : Except ReadError α :=
  .error (.refused ⟨v, file, 1, 1, []⟩)

/-- The declaration of the tapes, which the directive `tapes:` gives by its rows. -/
def tapeDecl? (r : Reader) : Option Ast.TapeDecl :=
  match r.seenLine? .tapes with
  | some header => some ⟨r.rows.reverse, true, r.locate header⟩
  | none => r.tape

/-- The tree of what has been read. -/
def assemble (r : Reader) : Except ReadError Ast.Program :=
  match r.tapeDecl?, r.seenLine? .rules with
  | none, _ => refuseWhole r.file .missingTape
  | some _, none => refuseWhole r.file .missingRules
  | some tape, some _ =>
    let tree : Ast.Program :=
      { tape := tape, states := r.states.reverse, name := r.name, head := r.head,
        blank := r.blank, sourcePath := some r.file }
    match r.head with
    | none => .ok tree
    | some head =>
      if head.positions.length = tape.arity then .ok tree
      else
        match r.seenLine? (if head.multi then .heads else .head) with
        | some line => r.refuse line (.headCount tape.arity head.positions.length)
        | none => .error .homeless

/-- The tree, once all lines have been read. -/
def finish (r : Reader) : Except ReadError Ast.Program := do
  let r ← r.settle
  r.flush.assemble

end Reader

/-- The tree of a source text; `file` is the name that locations carry. -/
def parse (text : List Char) (file : String) : Except ReadError Ast.Program :=
  if maxProgramSize < text.length then Reader.refuseWhole file (.tooLarge text.length)
  else do
    let reader : Reader := { file := file }
    (← reader.feedAll (scanLines text)).finish

/-- The note that a text has been read. -/
def parsedRecord (file : String) (tree : Ast.Program) : LogRecord where
  level := .debug
  source := "turlang.parser"
  message :=
    "Parsed " ++ file ++ ": " ++ toString tree.tape.arity ++ " tape(s), " ++
      toString tree.states.length ++ " state(s)"

end TapeLang
