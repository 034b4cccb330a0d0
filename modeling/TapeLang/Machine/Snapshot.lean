import TapeLang.Machine.Basic
import TapeLang.Text.Pad

/-!
# Snapshots

A snapshot is what can be seen of a machine: the stored cells of its tapes, its heads and its state.

* `Snapshot`, `Machine.snapshot`: the picture of a machine.
* `markHead`, `Snapshot.line`: the line of a trace, with the cells under the heads in brackets.
-/

namespace TapeLang

/-- The picture of a machine. -/
structure Snapshot where
  state : String
  /-- The stored cells of each tape from left to right. -/
  tapes : List (List Symbol)
  /-- The position of the first stored cell of each tape. -/
  offsets : List Int
  heads : List Int
  steps : Nat
  status : Status
  deriving DecidableEq, Repr

/-- The picture of a machine as it is. -/
def Machine.snapshot (m : Machine) : Snapshot where
  state := m.state
  tapes := m.tapes.map Tape.symbols
  offsets := m.tapes.map Tape.offset
  heads := m.heads
  steps := m.steps
  status := m.status

/-- A row of cells as one text, with the cell at `index` in brackets. Blank cells are added on either
side as far as the index lies outside the row. -/
def markHead (row : List Symbol) (index : Int) (blank : Symbol) : String :=
  let bracket (s : Symbol) : String := "[" ++ s ++ "]"
  match index with
  | .ofNat n =>
    String.join ((row ++ List.replicate (n + 1 - row.length) blank).modify n bracket)
  | .negSucc n => String.join (bracket blank :: (List.replicate n blank ++ row))

namespace Snapshot

/-- The tapes as texts. -/
def tapeTexts (s : Snapshot) : List String := s.tapes.map String.join

/-- The positions of the heads in the rows of stored cells. -/
def headIndices (s : Snapshot) : List Int := List.zipWith (· - ·) s.heads s.offsets

/-- The snapshot as a line of a trace. -/
def line (s : Snapshot) (blank : Symbol) : String :=
  let tapes := List.zipWith (fun row index => markHead row index blank) s.tapes s.headIndices
  Text.padStart 6 ' ' (toString s.steps) ++ "  " ++ Text.padEnd 12 ' ' s.state ++ " " ++
    " | ".intercalate tapes

end Snapshot

end TapeLang
