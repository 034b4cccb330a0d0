import TapeLang.Diagnostic.Basic
import TapeLang.Text.Lines
import TapeLang.Text.Space
import TapeLang.Text.Word

/-!
# Suppression of diagnostics

Diagnostics are silenced by identifier, everywhere or on a given line. A comment of the form
`# tur-suppress id id ...` silences the listed identifiers on its line and on the next one; the
identifier `*` stands for all.

* `directiveIds?`: the identifiers listed by the first such comment of a line.
* `Suppressions`: what is silenced; `Suppressions.covers` asks about a diagnostic.
* `Collector`: the diagnostics that are neither silenced nor below a given severity.
-/

namespace TapeLang

/-- A character of an identifier. -/
def isIdChar (c : Char) : Bool := Text.isIdentChar c || c == '-'

/-- Whether a character is the small letter `expected`, up to case. The long s is an s. -/
def sameLetter (expected c : Char) : Bool :=
  c == expected || c.toLower == expected || (expected == 's' && c == 'ſ')

/-- The text after the given word, up to case, if it begins with it. -/
def afterWord : List Char → List Char → Option (List Char)
  | [], s => some s
  | w :: word, c :: s => if sameLetter w c then afterWord word s else none
  | _ :: _, [] => none

/-- The text after its leading spaces, if it has any. -/
def afterSpaces? : List Char → Option (List Char)
  | [] => none
  | c :: s => if Text.isSpace c then some (s.dropWhile Text.isSpace) else none

/-- Identifiers separated by spaces, as far as they go; `fuel` bounds their number. -/
def idsFrom : Nat → List Char → List (List Char)
  | 0, _ => []
  | fuel + 1, s =>
    let word := s.takeWhile isIdChar
    if word.isEmpty then []
    else
      word ::
        match afterSpaces? (s.dropWhile isIdChar) with
        | some rest => idsFrom fuel rest
        | none => []

/-- The identifiers of a suppression comment whose number sign has just been read. -/
def idsAfterSign? (s : List Char) : Option (List (List Char)) :=
  match (afterWord "tur-suppress".toList (s.dropWhile Text.isSpace)).bind afterSpaces? with
  | none => none
  | some rest =>
    match idsFrom rest.length rest with
    | [] => none
    | ids => some ids

/-- The identifiers listed by the first suppression comment of a line. -/
def directiveIds? : List Char → Option (List (List Char))
  | [] => none
  | c :: s =>
    match if c = '#' then idsAfterSign? s else none with
    | some ids => some ids
    | none => directiveIds? s

/-- What is silenced. -/
structure Suppressions where
  /-- The identifiers silenced everywhere. -/
  everywhere : List String := []
  /-- The identifiers silenced on a line. -/
  inline : List (Int × String) := []
  deriving DecidableEq, Repr

namespace Suppressions

/-- Silence an identifier everywhere. -/
def addGlobal (s : Suppressions) (id : String) : Suppressions :=
  { s with everywhere := id :: s.everywhere }

/-- Silence an identifier on a line. -/
def addInline (s : Suppressions) (line : Int) (id : String) : Suppressions :=
  { s with inline := (line, id) :: s.inline }

/-- Silence identifiers on a line and on the next one. -/
def addDirective (s : Suppressions) (line : Int) (ids : List (List Char)) : Suppressions :=
  ids.foldl (fun s id => (s.addInline line (String.ofList id)).addInline (line + 1)
    (String.ofList id)) s

/-- Silence what the comments of physical lines say, the first of which has number `n`. -/
def loadFrom (s : Suppressions) (n : Nat) : List (List Char) → Suppressions
  | [] => s
  | line :: lines =>
    match directiveIds? line with
    | some ids => (s.addDirective n ids).loadFrom (n + 1) lines
    | none => s.loadFrom (n + 1) lines

/-- Silence what the comments of a source text say. -/
def load (s : Suppressions) (source : List Char) : Suppressions :=
  s.loadFrom 1 (Text.splitLines source)

/-- Whether a diagnostic is silenced. -/
def covers (s : Suppressions) (d : Diagnostic) : Bool :=
  s.everywhere.contains d.id || s.everywhere.contains "*" ||
    match d.location with
    | none => false
    | some l => s.inline.contains (l.line, d.id) || s.inline.contains (l.line, "*")

end Suppressions

/-- Diagnostics that pass a filter, in the order in which they are reported. -/
structure Collector where
  suppressions : Suppressions := {}
  /-- The least serious severity that is kept. -/
  minSeverity : Severity := .information
  found : Array Diagnostic := #[]

namespace Collector

/-- The diagnostics, in the order in which they were reported. -/
def diagnostics (c : Collector) : List Diagnostic := c.found.toList

/-- Keep a diagnostic, unless it is not serious enough or silenced. -/
def report (c : Collector) (d : Diagnostic) : Collector :=
  if c.minSeverity.rank < d.severity.rank then c
  else if c.suppressions.covers d then c
  else { c with found := c.found.push d }

/-- Keep those of several diagnostics that pass. -/
def reportAll (c : Collector) (ds : List Diagnostic) : Collector := ds.foldl report c

/-- Forget the diagnostics. -/
def clear (c : Collector) : Collector := { c with found := #[] }

end Collector

end TapeLang
