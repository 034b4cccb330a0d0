import TapeLang.Text.Space

/-!
# Indentation

An indentation is any run of spaces and tabs; the first line of a block fixes the indentation of the
whole block. The open blocks form a stack in which every level properly extends the one below.

* `splitIndent`: a line cut after its indentation.
* `describeIndent`: an indentation in words.
* `IndentStack`: the levels of the open blocks, with `push`, `pop` and `dedentTo`.
-/

namespace TapeLang

/-- The leading spaces and tabs of a line. -/
abbrev Indent := List Char

/-- A line cut after its leading spaces and tabs. -/
def splitIndent (raw : List Char) : Indent × List Char :=
  (raw.takeWhile Text.isBlank, raw.dropWhile Text.isBlank)

/-- A number of things, with the plural where it is due. -/
def countNoun (n : Nat) (noun : String) : String :=
  toString n ++ " " ++ noun ++ (if n = 1 then "" else "s")

/-- An indentation in words: how many spaces and how many tabs it has. -/
def describeIndent (indent : Indent) : String :=
  if indent.isEmpty then "no indentation"
  else
    let part (c : Char) (noun : String) : List String :=
      if indent.count c = 0 then [] else [countNoun (indent.count c) noun]
    " + ".intercalate (part ' ' "space" ++ part '\t' "tab")

/-- Why a block cannot be opened or closed. -/
inductive IndentError where
  /-- The new level does not extend the innermost one. -/
  | notDeeper (top indent : Indent)
  /-- There is no block left to close. -/
  | atBase (base : Indent)
  /-- No open block has this level. -/
  | unmatched (indent : Indent)
  deriving DecidableEq, Repr

namespace IndentError

/-- The error in words. -/
def message : IndentError → String
  | .notDeeper top indent =>
    "expected indentation deeper than " ++ describeIndent top ++ ", got " ++ describeIndent indent
  | .atBase _ => "cannot close the top-level block"
  | .unmatched indent => describeIndent indent ++ " does not match any enclosing block"

/-- The indentation that the error is about. -/
def indent : IndentError → Indent
  | .notDeeper _ indent => indent
  | .atBase base => base
  | .unmatched indent => indent

end IndentError

/-- The indentation levels of the open blocks. -/
structure IndentStack where
  /-- The level of the text outside every block. -/
  base : Indent := []
  /-- The levels of the open blocks, innermost first. -/
  inner : List Indent := []
  deriving DecidableEq, Repr

namespace IndentStack

/-- The innermost level. -/
def top (s : IndentStack) : Indent := s.inner.headD s.base

/-- The number of open blocks. -/
def depth (s : IndentStack) : Nat := s.inner.length

/-- All levels, outermost first. -/
def levels (s : IndentStack) : List Indent := s.base :: s.inner.reverse

/-- Whether an indentation properly extends the innermost level. -/
def isDeeper (s : IndentStack) (indent : Indent) : Bool :=
  s.top.length < indent.length && s.top.isPrefixOf indent

/-- Open a block. -/
def push (s : IndentStack) (indent : Indent) : Except IndentError IndentStack :=
  if s.isDeeper indent then .ok { s with inner := indent :: s.inner }
  else .error (.notDeeper s.top indent)

/-- Close the innermost block; the result holds its level. -/
def pop (s : IndentStack) : Except IndentError (Indent × IndentStack) :=
  match s.inner with
  | [] => .error (.atBase s.base)
  | level :: inner => .ok (level, { s with inner := inner })

/-- The levels above `base` that remain when blocks are closed until `indent` is the innermost level,
with the number of closed blocks. -/
def closeTo (base indent : Indent) : List Indent → Option (Nat × List Indent)
  | [] => if base = indent then some (0, []) else none
  | level :: inner =>
    if level = indent then some (0, level :: inner)
    else (closeTo base indent inner).map fun r => (r.1 + 1, r.2)

/-- Close blocks until `indent` is the innermost level; the result holds their number. -/
def dedentTo (s : IndentStack) (indent : Indent) : Except IndentError (Nat × IndentStack) :=
  match closeTo s.base indent s.inner with
  | some (closed, inner) => .ok (closed, { s with inner := inner })
  | none => .error (.unmatched indent)

end IndentStack

end TapeLang
