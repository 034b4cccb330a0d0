import Mathlib
import TapeLang.Proofs.Tree
import TapeLang.Source.Reader

/-!
# Writing a tree as a source text

A tree is written with its directives in a fixed order, one item to a line. The indentation of the blocks
is free: a `Layout` chooses it, and each state may have its own for its transitions.

* `Layout`: the indentation of the blocks;
* `Ast.Program.IsWritable`: the trees that can be written, with the parts from which they are made;
* `Ast.Program.sourceLines`, `Ast.Program.render`: the text of a tree.
-/

namespace TapeLang

/-- An indentation for a block: spaces and tabs, at least one. -/
structure IsUnit (indent : Indent) : Prop where
  ne_nil : indent ≠ []
  blank : ∀ c ∈ indent, Text.isBlank c = true

/-- The indentation of the blocks of a tree. -/
structure Layout where
  row : Indent
  state : Indent
  /-- The indentation of the transitions of the state of a given name. -/
  transition : String → Indent
  row_unit : IsUnit row
  state_unit : IsUnit state
  transition_unit : ∀ name, IsUnit (transition name)
  transition_deeper : ∀ name, state <+: transition name ∧ state ≠ transition name

namespace Ast

/-! ### What can be written -/

/-- A character that can stand for itself as a symbol. -/
structure IsPlainChar (c : Char) : Prop where
  space : Text.isSpace c = false
  special : c ∉ ['#', ',', '<', '>', '[', ']', '\'', '_']

/-- A symbol that can be written: the alias of the blank symbol, a plain character, or any character
between quotes that does not end the line. -/
inductive Spelling.IsWritable : Spelling → Prop
  | blank : IsWritable .blank
  | bare {c : Char} (plain : IsPlainChar c) : IsWritable (.bare (String.singleton c))
  | quoted {c : Char} (inline : Text.isLineBreak c = false) :
      IsWritable (.quoted (String.singleton c))

/-- The name of a state: a name character, then name characters, dots and hyphens. -/
def IsStateName (name : String) : Prop :=
  ∃ c cs, name = String.ofList (c :: cs) ∧ Text.isNameChar c = true ∧
    ∀ x ∈ cs, Text.isNameChar x = true ∨ x = '.' ∨ x = '-'

/-- The name of a program: trimmed, not empty, on one line, and without anything that would be taken
for a comment. -/
structure NameDecl.IsWritable (d : NameDecl) : Prop where
  ne_nil : d.text.toList ≠ []
  trimmed : Text.trim d.text.toList = d.text.toList
  inline : ∀ c ∈ d.text.toList, Text.isLineBreak c = false
  uncommented : stripComment d.text.toList = d.text.toList

/-- One tape, or a list of tapes. -/
structure TapeDecl.IsWritable (d : TapeDecl) : Prop where
  rows_ne : d.rows ≠ []
  single : d.multi = false → d.rows.length = 1
  symbols : ∀ row ∈ d.rows, ∀ s ∈ row, s.spelling.IsWritable

/-- The decimal digits of a head position. -/
def numeral (x : Int) : List Char := Nat.toDigits 10 x.toNat

/-- One position, or a list of positions, none of them too long to be read. -/
structure HeadDecl.IsWritable (d : HeadDecl) : Prop where
  single : d.multi = false → d.positions.length = 1
  nonneg : ∀ x ∈ d.positions, 0 ≤ x
  digits : ∀ x ∈ d.positions, (numeral x).length ≤ Text.maxDigits

/-- A blank symbol that can stand between quotes. -/
def BlankDecl.IsWritable (d : BlankDecl) : Prop :=
  ∃ c, d.symbol = String.singleton c ∧ Text.isLineBreak c = false

/-- A transition with one entry for each of its parts, or with vectors of one length. -/
structure Transition.IsWritable (t : Transition) : Prop where
  read : ∀ s ∈ t.read, s.spelling.IsWritable
  write : ∀ w ∈ t.write, ∀ s ∈ w, s.spelling.IsWritable
  moves : ∀ m ∈ t.moves, m ∈ ["R", "L", "S", "<", ">", "-"]
  next : IsStateName t.next
  read_ne : t.read ≠ []
  single : t.multi = false → t.read.length = 1
  write_length : ∀ w ∈ t.write, w.length = t.read.length
  moves_length : t.moves.length = t.read.length

/-- A tree that can be written. -/
structure Program.IsWritable (p : Program) : Prop where
  name : ∀ d ∈ p.name, d.IsWritable
  tape : p.tape.IsWritable
  head : ∀ d ∈ p.head, d.IsWritable
  head_count : ∀ d ∈ p.head, d.positions.length = p.tape.rows.length
  blank : ∀ d ∈ p.blank, d.IsWritable
  states_ne : p.states ≠ []
  distinct : (p.states.map State.name).Nodup
  state_name : ∀ s ∈ p.states, IsStateName s.name
  transitions : ∀ s ∈ p.states, ∀ t ∈ s.transitions, t.IsWritable

/-! ### The text -/

/-- Items with a comma and a space between them. -/
def listing : List (List Char) → List Char
  | [] => []
  | x :: xs => x ++ xs.flatMap fun y => ',' :: ' ' :: y

/-- Items in square brackets. -/
def vector (xs : List (List Char)) : List Char := '[' :: (listing xs ++ [']'])

/-- The symbols of a row as they are written. -/
def sources (row : List Symbol) : List (List Char) := row.map fun s => s.spelling.source

namespace Transition

/-- The symbols or moves of one part of a transition: with brackets if there are vectors. -/
def part (multi : Bool) (xs : List (List Char)) : List Char := if multi then vector xs else listing xs

/-- A transition line: what is read, an arrow and what is written, the moves, and the next state. -/
def source (t : Transition) : List Char :=
  part t.multi (sources t.read) ++
    ((t.write.map fun w => " -> ".toList ++ part t.multi (sources w)).getD [] ++
      (", ".toList ++ part t.multi (t.moves.map String.toList) ++ (", ".toList ++ t.next.toList)))

end Transition

/-- A line of a directive with its value. -/
def directive (d : Directive) (value : List Char) : List Char := d.text.toList ++ ':' :: value

/-- The line of the name. -/
def NameDecl.source (d : NameDecl) : List Char := directive .name (' ' :: d.text.toList)

/-- The lines of the tapes. A line for an empty tape ends with its colon. -/
def TapeDecl.sourceLines (layout : Layout) (d : TapeDecl) : List (List Char) :=
  if d.multi then directive .tapes [] :: d.rows.map fun row => layout.row ++ vector (sources row)
  else
    d.rows.map fun row =>
      directive .tape (if row = [] then [] else ' ' :: listing (sources row))

/-- The line of the heads. -/
def HeadDecl.source (d : HeadDecl) : List Char :=
  if d.multi then directive .heads (' ' :: vector (d.positions.map numeral))
  else directive .head (' ' :: listing (d.positions.map numeral))

/-- The line of the blank symbol. -/
def BlankDecl.source (d : BlankDecl) : List Char :=
  directive .blank (' ' :: '\'' :: (d.symbol.toList ++ ['\'']))

/-- The lines of a state. -/
def State.sourceLines (layout : Layout) (s : State) : List (List Char) :=
  (layout.state ++ (s.name.toList ++ [':'])) ::
    s.transitions.map fun t => layout.transition s.name ++ t.source

/-- The lines of a tree. -/
def Program.sourceLines (layout : Layout) (p : Program) : List (List Char) :=
  (p.name.map NameDecl.source).toList ++ (p.tape.sourceLines layout ++
    ((p.head.map HeadDecl.source).toList ++ ((p.blank.map BlankDecl.source).toList ++
      (directive .rules [] :: p.states.flatMap (State.sourceLines layout)))))

/-- The text of a tree; every line ends with a line feed. -/
def Program.render (layout : Layout) (p : Program) : List Char :=
  (p.sourceLines layout).flatMap (· ++ ['\n'])

end Ast

end TapeLang
