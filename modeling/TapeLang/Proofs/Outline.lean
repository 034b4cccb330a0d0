import Mathlib
import TapeLang.Source.Reader

/-!
# The outline of a text

A text that is read without error consists of sections: an unindented line with a directive, and the
indented lines below it. This file says what a section has to look like, without a reader, and what the
tree takes from it.

* `Section`, `exists_sections`: an unindented line with the indented lines that follow it;
* `Part`: what a section adds to the tree;
* `Line.Announces`, `Declared`: the line of a directive, and the value on it;
* `ReadsRow`, `ReadsTransition`, `ReadsOn`: the rows of the tapes, and the states with their transitions;
* `Section.Reads`: a section as a whole.
-/

namespace TapeLang

/-! ### Sections -/

/-- An unindented line with the indented lines that follow it. -/
structure Section where
  header : Line
  body : List Line
  header_indent : header.indent = []
  body_indent : ∀ line ∈ body, line.indent ≠ []

/-- The lines of a section. -/
def Section.lines (s : Section) : List Line := s.header :: s.body

/-- Behind the indented lines at its beginning, every text is a list of sections. -/
theorem exists_sections (lines : List Line) :
    ∃ (front : List Line) (sections : List Section), (∀ line ∈ front, line.indent ≠ []) ∧
      lines = front ++ sections.flatMap Section.lines := by
  induction lines with
  | nil => exact ⟨[], [], by simp, rfl⟩
  | cons line lines ih =>
    obtain ⟨front, sections, hfront, rfl⟩ := ih
    by_cases hline : line.indent = []
    · exact ⟨[], ⟨line, front, hline, hfront⟩ :: sections, by simp, rfl⟩
    · exact ⟨line :: front, sections, List.forall_mem_cons.2 ⟨hline, hfront⟩, rfl⟩

/-! ### Parts -/

/-- What a section adds to the tree. -/
inductive Part where
  | name (d : Ast.NameDecl)
  | tape (d : Ast.TapeDecl)
  | head (d : Ast.HeadDecl)
  | blank (d : Ast.BlankDecl)
  | rules (states : List Ast.State)

/-- The directive of a part. -/
def Part.directive : Part → Directive
  | .name _ => .name
  | .tape d => if d.multi then .tapes else .tape
  | .head d => if d.multi then .heads else .head
  | .blank _ => .blank
  | .rules _ => .rules

/-- A directive under the first of its two spellings. -/
def Directive.topic (d : Directive) : Directive := (d.variants.map Prod.fst).getD d

/-- What a part is about. -/
def Part.topic : Part → Directive
  | .name _ => .name
  | .tape _ => .tape
  | .head _ => .head
  | .blank _ => .blank
  | .rules _ => .rules

theorem Part.topic_directive (part : Part) : part.directive.topic = part.topic := by
  cases part with
  | tape d => cases h : d.multi <;> simp [directive, topic, h] <;> rfl
  | head d => cases h : d.multi <;> simp [directive, topic, h] <;> rfl
  | name | blank | rules => rfl

/-- The tree has the part. -/
def Ast.Program.Has (tree : Ast.Program) : Part → Prop
  | .name d => tree.name = some d
  | .tape d => tree.tape = d
  | .head d => tree.head = some d
  | .blank d => tree.blank = some d
  | .rules states => tree.states = states

/-! ### Lines -/

/-- The place of a line. -/
def Line.place (file : String) (line : Line) : Location := ⟨file, line.number, line.column⟩

/-- The place of position `n` in a text that begins after `offset` characters of the line. -/
def Line.placeAt (file : String) (line : Line) (offset n : Nat) : Location :=
  ⟨file, line.number, offset + n + 1⟩

/-- The line has the directive `d`, and behind its colon, after `offset` characters, the text `rest`. -/
def Line.Announces (line : Line) (d : Directive) (offset : Nat) (rest : List Char) : Prop :=
  ∃ key, line.content = key ++ ':' :: rest ∧ ':' ∉ key ∧
    Directive.ofText? (String.ofList (Text.trim key)) = some d ∧
    offset = line.indent.length + key.length + 1

/-- The value of a directive on its own line, with the part that it gives. -/
inductive Declared (file : String) (line : Line) (offset : Nat) (rest : List Char) : Part → Prop
  | name (ne : Text.trim rest ≠ []) :
      Declared file line offset rest (.name ⟨String.ofList (Text.trim rest), line.place file⟩)
  | tape {row : List Ast.Symbol}
      (value : (LineRule.tapeValue (line.placeAt file offset)).parse rest = .ok row) :
      Declared file line offset rest (.tape ⟨[row], false, line.place file⟩)
  | head {digits : List Char} {x : Nat} (value : LineRule.headValue.parse rest = .ok digits)
      (number : Text.numeral? digits = some x) :
      Declared file line offset rest (.head ⟨[x], false, line.place file⟩)
  | heads {numerals : List (List Char)} {xs : List Int}
      (value : LineRule.headsValue.parse rest = .ok numerals)
      (numbers : List.Forall₂ (fun ds x => Reader.readIndex ds = .ok x) numerals xs) :
      Declared file line offset rest (.head ⟨xs, true, line.place file⟩)
  | blank {s : Ast.Symbol}
      (value : (LineRule.blankValue (line.placeAt file offset)).parse rest = .ok s) :
      Declared file line offset rest (.blank ⟨s.spelling.value, line.place file⟩)

/-- The line is a row of the tapes. -/
def ReadsRow (file : String) (line : Line) (row : List Ast.Symbol) : Prop :=
  (LineRule.tapeRow (line.placeAt file line.indent.length)).parse line.content = .ok row

/-- The line is a transition. -/
def ReadsTransition (file : String) (line : Line) (t : Ast.Transition) : Prop :=
  (LineRule.transition (line.placeAt file line.indent.length)).parse line.content = .ok t ∧
    t.vectorViolation? = none

/-- A line of the given indentation may be a transition of the current state: it has the indentation of
the transitions before it, or it is the first one and is indented deeper than the states. -/
def Follows (unit : Indent) (inner : Option Indent) (indent : Indent) : Prop :=
  inner = some indent ∨ inner = none ∧ unit <+: indent ∧ unit ≠ indent

/-- The lines continue the block of the states, which are indented by `unit`. The state `s` is the current
one, its transitions are indented by `inner`, and the states so far have the names `known`. The result is
the current state, with the transitions that belong to it, and the states after it. -/
inductive ReadsOn (file : String) (unit : Indent) :
    Option Indent → List String → Ast.State → List Line → List Ast.State → Prop
  | stop {inner : Option Indent} {known : List String} {s : Ast.State} :
      ReadsOn file unit inner known s [] [s]
  | transition {inner : Option Indent} {known : List String} {s : Ast.State} {line : Line}
      {lines : List Line} {t : Ast.Transition} {states : List Ast.State}
      (follows : Follows unit inner line.indent) (value : ReadsTransition file line t)
      (rest : ReadsOn file unit (some line.indent) known
        { s with transitions := s.transitions ++ [t] } lines states) :
      ReadsOn file unit inner known s (line :: lines) states
  | header {inner : Option Indent} {known : List String} {s : Ast.State} {line : Line}
      {lines : List Line} {name : String} {states : List Ast.State} (indent : line.indent = unit)
      (value : LineRule.stateHeader.parse line.content = .ok name) (fresh : name ∉ known)
      (rest : ReadsOn file unit none (name :: known) ⟨name, [], line.place file⟩ lines states) :
      ReadsOn file unit inner known s (line :: lines) (s :: states)

/-- A section with the part that it gives. -/
inductive Section.Reads (file : String) (s : Section) : Part → Prop
  | line {offset : Nat} {rest : List Char} {part : Part}
      (announces : s.header.Announces part.directive offset rest)
      (declared : Declared file s.header offset rest part) (body : s.body = []) : Reads file s part
  | tapes {offset : Nat} {rest : List Char} {unit : Indent} {rows : List (List Ast.Symbol)}
      (announces : s.header.Announces .tapes offset rest) (bare : Text.trim rest = [])
      (ne : s.body ≠ []) (level : ∀ line ∈ s.body, line.indent = unit)
      (reads : List.Forall₂ (ReadsRow file) s.body rows) :
      Reads file s (.tape ⟨rows, true, s.header.place file⟩)
  | rules {offset : Nat} {rest : List Char} {first : Line} {lines : List Line} {name : String}
      {states : List Ast.State} (announces : s.header.Announces .rules offset rest)
      (bare : Text.trim rest = []) (body : s.body = first :: lines)
      (value : LineRule.stateHeader.parse first.content = .ok name)
      (reads : ReadsOn file first.indent none [name] ⟨name, [], first.place file⟩ lines states) :
      Reads file s (.rules states)

end TapeLang
