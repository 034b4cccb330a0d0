import TapeLang.Ast.Basic
import TapeLang.Pattern
import TapeLang.Text.Space
import TapeLang.Text.Word

/-!
# The rules of a line

The patterns for what a line of a program may hold. Each takes the map `here` from positions in the
text to source locations. Written as a grammar, with `_` for a run of spaces and tabs:

* `transition`: `multiTransition / singleTransition`
* `singleTransition`: `symbol writeClause? _ "," _ direction _ "," _ stateName _`
* `multiTransition`: `symbolVector multiWrite? _ "," _ directionVector _ "," _ stateName _`
* `writeClause`, `multiWrite`: `_ "->" _ symbol` and `_ "->" _ symbolVector`
* `stateHeader`: `stateName _ ":" _`
* `tapeValue`, `tapeRow`: `_ symbolList? _` and `symbolVector _`
* `headValue`, `headsValue`: `_ index _` and `_ "[" _ indexList? _ "]" _`
* `blankValue`: `_ symbol _`
* `symbol`: `quotedSymbol / blankAlias / bareSymbol`

A list has items separated by commas; a vector is a list in square brackets, which may be empty.
-/

namespace TapeLang.LineRule

open Pattern

/-- A run of spaces and tabs. -/
def blanks : Pattern (List Char) := .run Text.isBlank

/-- A comma between blanks. -/
def comma : Pattern Char := blanks.andThen ((exactly ',').andSkip blanks)

/-- An arrow between blanks. -/
def arrow : Pattern (Char × Char) :=
  blanks.andThen ((Pattern.token (.seq (exactly '-') (exactly '>'))).andSkip blanks)

/-- Items separated by commas, at least one. -/
def listOf {α : Type} (item : Pattern α) : Pattern (List α) :=
  .rule (.map (fun _ x => x.1 :: x.2) (.seq item (.many (comma.andThen item))))

/-- An optional list in square brackets. -/
def bracketed {α : Type} (items : Pattern (List α)) : Pattern (List α) :=
  (exactly '[').andThen (blanks.andThen
    ((Pattern.map (fun _ x => x.getD []) (.opt items)).andSkip (blanks.andThen (exactly ']'))))

/-- A character that can be a symbol without quotes. -/
def isBareSymbol (c : Char) : Bool :=
  !(Text.isWhite c || c == '#' || c == ',' || c == '<' || c == '>' || c == '[' || c == ']' ||
    c == '\'')

/-- A character that stands for a move. -/
def isDirection (c : Char) : Bool :=
  c == 'R' || c == 'L' || c == 'S' || c == '<' || c == '>' || c == '-'

/-- A character of the name of a state, after the first. -/
def isNameTail (c : Char) : Bool := Text.isNameChar c || c == '.' || c == '-'

/-- A character between single quotes. -/
def quotedSymbol (here : Nat → Location) : Pattern Ast.Symbol :=
  .rule (.map (fun n x => ⟨.quoted (String.singleton x), here n⟩)
    (.token ((exactly '\'').andThen ((Pattern.char fun _ => true).andSkip (exactly '\'')))))

/-- The underscore that stands for the blank symbol. -/
def blankAlias (here : Nat → Location) : Pattern Ast.Symbol :=
  .rule (.map (fun n _ => ⟨.blank, here n⟩) (exactly '_'))

/-- A symbol without quotes. -/
def bareSymbol (here : Nat → Location) : Pattern Ast.Symbol :=
  .rule (.map (fun n c => ⟨.bare (String.singleton c), here n⟩) (.char isBareSymbol))

/-- A symbol. -/
def symbol (here : Nat → Location) : Pattern Ast.Symbol :=
  .rule (.alt (quotedSymbol here) (.alt (blankAlias here) (bareSymbol here)))

/-- A move, as it is written. -/
def direction : Pattern String :=
  .rule (.map (fun _ c => String.singleton c) (.char isDirection))

/-- The name of a state: a name character, then name characters, dots and hyphens. -/
def stateName : Pattern String :=
  .rule (.map (fun _ x => String.ofList (x.1 :: x.2))
    (.token (.seq (.char Text.isNameChar) (.run isNameTail))))

/-- The digits of a head position. -/
def index : Pattern (List Char) :=
  .rule (.map (fun _ x => x.1 :: x.2) (.token (.seq (.char Text.isDecimal) (.run Text.isDecimal))))

/-- Symbols separated by commas. -/
def symbolList (here : Nat → Location) : Pattern (List Ast.Symbol) := listOf (symbol here)

/-- Moves separated by commas. -/
def directionList : Pattern (List String) := listOf direction

/-- Head positions separated by commas. -/
def indexList : Pattern (List (List Char)) := listOf index

/-- Symbols in square brackets. -/
def symbolVector (here : Nat → Location) : Pattern (List Ast.Symbol) :=
  .rule (bracketed (symbolList here))

/-- Moves in square brackets. -/
def directionVector : Pattern (List String) := .rule (bracketed directionList)

/-- An arrow and the symbol to write. -/
def writeClause (here : Nat → Location) : Pattern Ast.Symbol := .rule (arrow.andThen (symbol here))

/-- An arrow and the symbols to write. -/
def multiWrite (here : Nat → Location) : Pattern (List Ast.Symbol) :=
  .rule (arrow.andThen (symbolVector here))

/-- A transition of one tape. -/
def singleTransition (here : Nat → Location) : Pattern Ast.Transition :=
  .rule (.map
    (fun n x =>
      { read := [x.1], write := x.2.1.map fun s => [s], moves := [x.2.2.1], next := x.2.2.2,
        multi := false, loc := here n })
    (.seq (symbol here) (.seq (.opt (writeClause here))
      (.seq (comma.andThen direction) (comma.andThen (stateName.andSkip blanks))))))

/-- A transition with vectors. -/
def multiTransition (here : Nat → Location) : Pattern Ast.Transition :=
  .rule (.map
    (fun n x =>
      { read := x.1, write := x.2.1, moves := x.2.2.1, next := x.2.2.2,
        multi := true, loc := here n })
    (.seq (symbolVector here) (.seq (.opt (multiWrite here))
      (.seq (comma.andThen directionVector) (comma.andThen (stateName.andSkip blanks))))))

/-- A transition line. -/
def transition (here : Nat → Location) : Pattern Ast.Transition :=
  .rule (.alt (multiTransition here) (singleTransition here))

/-- The header of a state. -/
def stateHeader : Pattern String :=
  .rule (stateName.andSkip (blanks.andThen ((exactly ':').andSkip blanks)))

/-- What follows `tape:`. -/
def tapeValue (here : Nat → Location) : Pattern (List Ast.Symbol) :=
  .rule (blanks.andThen
    ((Pattern.map (fun _ x => x.getD []) (.opt (symbolList here))).andSkip blanks))

/-- A row below `tapes:`. -/
def tapeRow (here : Nat → Location) : Pattern (List Ast.Symbol) :=
  .rule ((symbolVector here).andSkip blanks)

/-- What follows `head:`. -/
def headValue : Pattern (List Char) := .rule (blanks.andThen (index.andSkip blanks))

/-- What follows `heads:`. -/
def headsValue : Pattern (List (List Char)) :=
  .rule (blanks.andThen ((bracketed indexList).andSkip blanks))

/-- What follows `blank:`. -/
def blankValue (here : Nat → Location) : Pattern Ast.Symbol :=
  .rule (blanks.andThen ((symbol here).andSkip blanks))

end TapeLang.LineRule
