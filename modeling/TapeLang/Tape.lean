import TapeLang.Program.Basic

/-!
# Tapes

A tape is infinite in both directions, but only the cells that have been used are stored: those at
positions 0, 1, 2, … and those at positions -1, -2, -3, …, in two arrays. Reading or writing a cell
first stores every cell between it and the stored ones; peeking stores nothing.

The arrays, and the lists of the programs, are taken to have no greatest size. A cell can be stored at every
position, however far away it is: access never fails for want of room, and neither does a position become too
large to be one.

* `Tape`, `Tape.ofList`: a tape and a fresh one.
* `Tape.read?`, `Tape.write`, `Tape.write?`: access that stores the cell.
* `Tape.peek`: the symbol at a position.
* `Tape.symbols`, `Tape.bounds`: the stored cells and their positions.
-/

namespace TapeLang

/-- A tape with the cells that have been used. -/
structure Tape where
  blank : Symbol
  /-- The cells at positions -1, -2, -3, … -/
  left : Array Symbol := #[]
  /-- The cells at positions 0, 1, 2, … -/
  right : Array Symbol := #[]
  deriving DecidableEq, Repr

namespace Tape

/-- A tape with given contents from position zero. -/
def ofList (contents : List Symbol) (blank : Symbol) : Tape := ⟨blank, #[], contents.toArray⟩

/-- The cells by which a half of the tape is extended, one for each character of the blank symbol. -/
def blankCells (blank : Symbol) : List Symbol := blank.toList.map String.singleton

/-- A half of the tape, extended by the blank cells for each position that it lacks to `size`. -/
def extend (blank : Symbol) (half : Array Symbol) (size : Nat) : Array Symbol :=
  half ++ (List.replicate (size - half.size) (blankCells blank)).flatten

/-- The tape with all cells stored up to a position. -/
def reach : Tape → Int → Tape
  | ⟨blank, left, right⟩, .ofNat n => ⟨blank, left, extend blank right (n + 1)⟩
  | ⟨blank, left, right⟩, .negSucc n => ⟨blank, extend blank left (n + 1), right⟩

/-- The stored cell at a position. -/
def cell? (t : Tape) : Int → Option Symbol
  | .ofNat n => t.right[n]?
  | .negSucc n => t.left[n]?

/-- The tape with a stored cell replaced. -/
def put : Tape → Int → Symbol → Tape
  | ⟨blank, left, right⟩, .ofNat n, s => ⟨blank, left, right.setIfInBounds n s⟩
  | ⟨blank, left, right⟩, .negSucc n, s => ⟨blank, left.setIfInBounds n s, right⟩

/-- The symbol at a position, and the tape on which its cell is stored. There is none if the blank
symbol is empty and the cell was not stored before. -/
def read? (t : Tape) (position : Int) : Option (Symbol × Tape) :=
  let t := t.reach position
  (t.cell? position).map fun s => (s, t)

/-- The tape with a symbol written at a position. Nothing is written if the blank symbol is empty and
the cell was not stored before. -/
def write (t : Tape) (position : Int) (s : Symbol) : Tape := (t.reach position).put position s

/-- The tape with a symbol written at a position, unless the blank symbol is empty and the cell was not
stored before. -/
def write? (t : Tape) (position : Int) (s : Symbol) : Option Tape :=
  if ((t.reach position).cell? position).isSome then some (t.write position s) else none

/-- The symbol at a position. -/
def peek (t : Tape) (position : Int) : Symbol := (t.cell? position).getD t.blank

/-- The position of the leftmost stored cell. -/
def offset (t : Tape) : Int := -t.left.size

/-- The positions of the stored cells: from the first number up to, but not including, the second. -/
def bounds (t : Tape) : Int × Int := (t.offset, t.right.size)

/-- The number of stored cells. -/
def size (t : Tape) : Nat := t.left.size + t.right.size

/-- The stored cells from left to right. -/
def symbols (t : Tape) : List Symbol := t.left.toList.reverse ++ t.right.toList

/-- How many stored cells hold a symbol. -/
def count (t : Tape) (s : Symbol) : Nat := t.left.count s + t.right.count s

/-- How many stored cells do not hold the blank symbol. -/
def nonBlank (t : Tape) : Nat := t.size - t.count t.blank

/-- The stored cells as one text. -/
def text (t : Tape) : String := String.join t.symbols

/-- The tape with its offset and its blank symbol. -/
def display (t : Tape) : String :=
  "Tape(" ++ Text.quoted t.text ++ ", offset=" ++ toString t.offset ++ ", blank=" ++
    Text.quoted t.blank ++ ")"

end Tape

end TapeLang
