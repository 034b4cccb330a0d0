import Mathlib
import TapeLang.Program.Build

/-!
# Trees up to locations, and trees that have been read

* `Ast.Program.unlocated`: a tree without the places at which its nodes stand;
* `Ast.Spelling.source`: how a symbol is written in a source text;
* `Ast.Spelling.IsSingle`, `Ast.Transition.IsSpelled`, `Ast.Program.IsRead`: what is true of every tree
  that comes from a source text, and of its parts.
-/

namespace TapeLang.Ast

/-! ### Forgetting locations -/

/-- A symbol without its place. -/
def Symbol.unlocated (s : Symbol) : Symbol := { s with loc := {} }

/-- A transition without the places of its parts. -/
def Transition.unlocated (t : Transition) : Transition :=
  { t with
    read := t.read.map Symbol.unlocated
    write := t.write.map (List.map Symbol.unlocated)
    loc := {} }

/-- A state without the places of its parts. -/
def State.unlocated (s : State) : State :=
  { s with transitions := s.transitions.map Transition.unlocated, loc := {} }

/-- A declaration of tapes without the places of its parts. -/
def TapeDecl.unlocated (d : TapeDecl) : TapeDecl :=
  { d with rows := d.rows.map (List.map Symbol.unlocated), loc := {} }

/-- The name of a program without its place. -/
def NameDecl.unlocated (d : NameDecl) : NameDecl := { d with loc := {} }

/-- A declaration of heads without its place. -/
def HeadDecl.unlocated (d : HeadDecl) : HeadDecl := { d with loc := {} }

/-- A declaration of the blank symbol without its place. -/
def BlankDecl.unlocated (d : BlankDecl) : BlankDecl := { d with loc := {} }

/-- A tree without the places of its parts and without the name of its source. -/
def Program.unlocated (p : Program) : Program where
  tape := p.tape.unlocated
  states := p.states.map State.unlocated
  name := p.name.map NameDecl.unlocated
  head := p.head.map HeadDecl.unlocated
  blank := p.blank.map BlankDecl.unlocated
  sourcePath := none

/-! ### Symbols -/

namespace Spelling

/-- A symbol as a source text writes it. -/
def source : Spelling → List Char
  | .blank => ['_']
  | .bare value => value.toList
  | .quoted value => '\'' :: (value.toList ++ ['\''])

/-- The text of the symbol is one character. -/
def IsSingle (s : Spelling) : Prop := s.value.length = 1

theorem isSingle_blank : IsSingle .blank := by
  show "_".length = 1
  decide

theorem isSingle_bare (c : Char) : IsSingle (.bare (String.singleton c)) := by
  simp [IsSingle, value, resolve]

theorem isSingle_quoted (c : Char) : IsSingle (.quoted (String.singleton c)) := by
  simp [IsSingle, value, resolve]

theorem length_resolve {blank : String} (hb : blank.length = 1) {s : Spelling} (h : s.IsSingle) :
    (s.resolve blank).length = 1 := by
  cases s with
  | blank => exact hb
  | bare value => exact h
  | quoted value => exact h

end Spelling

/-- The symbols of a transition are single characters and its moves have a meaning. -/
structure Transition.IsSpelled (t : Transition) : Prop where
  read : ∀ s ∈ t.read, s.spelling.IsSingle
  write : ∀ w ∈ t.write, ∀ s ∈ w, s.spelling.IsSingle
  moves : ∀ m ∈ t.moves, (Direction.ofText? m).isSome

/-- What is true of every tree that comes from a source text. -/
structure Program.IsRead (tree : Program) : Prop where
  rows_ne : tree.tape.rows ≠ []
  rows : ∀ row ∈ tree.tape.rows, ∀ s ∈ row, s.spelling.IsSingle
  head_count : ∀ d ∈ tree.head, d.positions.length = tree.tape.arity
  heads : ∀ d ∈ tree.head, ∀ x ∈ d.positions, 0 ≤ x
  blank : ∀ d ∈ tree.blank, d.symbol.length = 1
  states_ne : tree.states ≠ []
  transitions : ∀ s ∈ tree.states, ∀ t ∈ s.transitions, t.IsSpelled

end TapeLang.Ast
