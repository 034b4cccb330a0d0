import TapeLang.Location

/-!
# Syntax trees

A tree keeps the structure of a source text before any default is filled in. Every node carries the
location at which it stands.

* `Ast.Spelling`, `Ast.Symbol`: a tape symbol as the source writes it.
* `Ast.NameDecl`, `Ast.TapeDecl`, `Ast.HeadDecl`, `Ast.BlankDecl`: the directives.
* `Ast.Transition`, `Ast.State`: the rules.
* `Ast.Program`: the whole tree.
-/

namespace TapeLang.Ast

/-- How a symbol is written. -/
inductive Spelling where
  /-- The unquoted underscore, which stands for the blank symbol. -/
  | blank
  /-- A symbol written as it is. -/
  | bare (value : String)
  /-- A symbol between single quotes. -/
  | quoted (value : String)
  deriving DecidableEq, Repr

namespace Spelling

/-- The symbol that a spelling denotes, given the blank symbol. -/
def resolve (blank : String) : Spelling → String
  | .blank => blank
  | .bare value => value
  | .quoted value => value

/-- The text of a spelling without quotes. -/
def value : Spelling → String := resolve "_"

/-- Whether a spelling is the unquoted underscore. -/
def isBlank : Spelling → Bool
  | .blank => true
  | _ => false

/-- Whether a spelling has quotes. -/
def isQuoted : Spelling → Bool
  | .quoted _ => true
  | _ => false

end Spelling

/-- A tape symbol in the source. -/
structure Symbol where
  spelling : Spelling
  loc : Location := {}
  deriving DecidableEq, Repr

/-- The symbol that a node denotes, given the blank symbol. -/
def Symbol.resolve (blank : String) (s : Symbol) : String := s.spelling.resolve blank

/-- The directive `name:`. -/
structure NameDecl where
  text : String
  loc : Location := {}
  deriving DecidableEq, Repr

/-- The directive `tape:`, with one row, or `tapes:`, with a row for each tape. -/
structure TapeDecl where
  rows : List (List Symbol)
  multi : Bool := false
  loc : Location := {}
  deriving DecidableEq, Repr

/-- The number of tapes. -/
def TapeDecl.arity (d : TapeDecl) : Nat := d.rows.length

/-- The directive `head:`, with one position, or `heads:`, with a list of positions. -/
structure HeadDecl where
  positions : List Int
  multi : Bool := false
  loc : Location := {}
  deriving DecidableEq, Repr

/-- The directive `blank:`. -/
structure BlankDecl where
  symbol : String
  loc : Location := {}
  deriving DecidableEq, Repr

/-- A transition line. The moves are kept as they are written. -/
structure Transition where
  read : List Symbol
  /-- The symbols to write, if the line has any. -/
  write : Option (List Symbol)
  moves : List String
  next : String
  /-- Whether the line is written with vectors. -/
  multi : Bool := false
  loc : Location := {}
  deriving DecidableEq, Repr

/-- A state with its transitions. -/
structure State where
  name : String
  transitions : List Transition := []
  loc : Location := {}
  deriving DecidableEq, Repr

/-- The tree of a whole source text, with the states in source order. -/
structure Program where
  tape : TapeDecl
  states : List State
  name : Option NameDecl := none
  head : Option HeadDecl := none
  blank : Option BlankDecl := none
  sourcePath : Option String := none
  deriving DecidableEq, Repr

end TapeLang.Ast
