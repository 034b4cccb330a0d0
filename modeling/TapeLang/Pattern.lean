/-!
# Patterns for the contents of a line

A pattern describes a piece of text and the value that it stands for. It is read with ordered choice
and greedy repetition: an alternative or a repetition that has matched is never taken back.

* `Pattern`: the patterns, indexed by the type of their values.
* `Pattern.match?`: the match of a pattern at a position.
* `Pattern.failures`: everything that fails on the way, in order.
* `Pattern.parse`: the value of a whole text, or the place to report.

The place to report is the rightmost position at which a rule failed. Pieces of a rule do not count,
except that the very first failure always does.
-/

namespace TapeLang

/-- A description of a piece of text whose value is an `α`. -/
inductive Pattern : Type → Type 1 where
  /-- One character of a class. -/
  | char (p : Char → Bool) : Pattern Char
  /-- The longest run of characters of a class, which may be empty. -/
  | run (p : Char → Bool) : Pattern (List Char)
  /-- One pattern after the other. -/
  | seq {α β : Type} (a : Pattern α) (b : Pattern β) : Pattern (α × β)
  /-- The second pattern, where the first does not match. -/
  | alt {α : Type} (a b : Pattern α) : Pattern α
  /-- The pattern or nothing. -/
  | opt {α : Type} (a : Pattern α) : Pattern (Option α)
  /-- The pattern as often as it matches. -/
  | many {α : Type} (a : Pattern α) : Pattern (List α)
  /-- A value computed from the position of the match and the value of a pattern. -/
  | map {α β : Type} (f : Nat → α → β) (a : Pattern α) : Pattern β
  /-- A pattern that is not divided further: it fails as a whole. -/
  | token {α : Type} (a : Pattern α) : Pattern α
  /-- A pattern that counts as a rule of its own. -/
  | rule {α : Type} (a : Pattern α) : Pattern α

/-- A match: its value, the position where it ends, and the text after it. -/
structure Match (α : Type) where
  value : α
  stop : Nat
  rest : List Char

/-- Something failed at a position; `isRule` says whether it was a rule. -/
structure Failure where
  isRule : Bool
  pos : Nat
  deriving DecidableEq, Repr

/-- Match `f` again and again, each time where the last match ended, at most `fuel` times; not at the
end of the text, and not after a match of no character. -/
def matchAll {α : Type} (f : Nat → List Char → Option (Match α)) :
    Nat → Nat → List Char → Match (List α)
  | 0, n, s => ⟨[], n, s⟩
  | fuel + 1, n, s =>
    if s.isEmpty then ⟨[], n, s⟩
    else
      match f n s with
      | none => ⟨[], n, s⟩
      | some m =>
        if m.stop = n then ⟨[m.value], n, s⟩
        else
          let r := matchAll f fuel m.stop m.rest
          ⟨m.value :: r.value, r.stop, r.rest⟩

/-- The failures on the way of `matchAll`, where `g` lists those of one match of `f`. -/
def failuresAll {α : Type} (f : Nat → List Char → Option (Match α))
    (g : Nat → List Char → List Failure) : Nat → Nat → List Char → List Failure
  | 0, _, _ => []
  | fuel + 1, n, s =>
    if s.isEmpty then []
    else
      g n s ++
        match f n s with
        | none => []
        | some m => if m.stop = n then [] else failuresAll f g fuel m.stop m.rest

namespace Pattern

/-- The match of a pattern at position `n`, where the text `s` begins. -/
def match? {α : Type} : Pattern α → Nat → List Char → Option (Match α)
  | .char p, n, s =>
    match s with
    | c :: rest => if p c then some ⟨c, n + 1, rest⟩ else none
    | [] => none
  | .run p, n, s => some ⟨s.takeWhile p, n + (s.takeWhile p).length, s.dropWhile p⟩
  | .seq a b, n, s =>
    match a.match? n s with
    | none => none
    | some m =>
      match b.match? m.stop m.rest with
      | none => none
      | some k => some ⟨(m.value, k.value), k.stop, k.rest⟩
  | .alt a b, n, s =>
    match a.match? n s with
    | some m => some m
    | none => b.match? n s
  | .opt a, n, s =>
    if s.isEmpty then some ⟨none, n, s⟩
    else
      match a.match? n s with
      | some m => some ⟨some m.value, m.stop, m.rest⟩
      | none => some ⟨none, n, s⟩
  | .many a, n, s => some (matchAll (fun n s => a.match? n s) s.length n s)
  | .map f a, n, s =>
    match a.match? n s with
    | some m => some ⟨f n m.value, m.stop, m.rest⟩
    | none => none
  | .token a, n, s => a.match? n s
  | .rule a, n, s => a.match? n s

/-- A failure at `n` unless the pattern matches there. -/
def failureUnless {α : Type} (m : Option (Match α)) (isRule : Bool) (n : Nat) : List Failure :=
  if m.isSome then [] else [⟨isRule, n⟩]

/-- Everything that fails while the pattern is matched at position `n`, in order. Failures inside an
alternative or an optional part count even if the match goes on without it. -/
def failures {α : Type} : Pattern α → Nat → List Char → List Failure
  | .char p, n, s => failureUnless (match? (.char p) n s) false n
  | .run _, _, _ => []
  | .seq a b, n, s =>
    a.failures n s ++
      match a.match? n s with
      | none => []
      | some m => b.failures m.stop m.rest
  | .alt a b, n, s =>
    a.failures n s ++
      match a.match? n s with
      | some _ => []
      | none => b.failures n s
  | .opt a, n, s => if s.isEmpty then [] else a.failures n s
  | .many a, n, s =>
    failuresAll (fun n s => a.match? n s) (fun n s => a.failures n s) s.length n s
  | .map _ a, n, s => a.failures n s
  | .token a, n, s => failureUnless (a.match? n s) false n
  | .rule a, n, s => a.failures n s ++ failureUnless (a.match? n s) true n

end Pattern

/-- The place to report: the rightmost failure of a rule, or the first failure of all if that is
further right. -/
def furthest : List Failure → Nat
  | [] => 0
  | f :: fs => fs.foldl (fun best g => if g.isRule then max best g.pos else best) f.pos

/-- Why a pattern does not describe a whole text. -/
inductive Mismatch where
  /-- It does not match at the beginning; the position is the one to report. -/
  | refused (pos : Nat)
  /-- It matches only up to a position before the end. -/
  | leftover (pos : Nat)
  deriving DecidableEq, Repr

/-- The position to report. -/
def Mismatch.pos : Mismatch → Nat
  | .refused pos => pos
  | .leftover pos => pos

/-- The value of a whole text. -/
def Pattern.parse {α : Type} (a : Pattern α) (s : List Char) : Except Mismatch α :=
  match a.match? 0 s with
  | none => .error (.refused (furthest (a.failures 0 s)))
  | some m => if m.rest.isEmpty then .ok m.value else .error (.leftover m.stop)

namespace Pattern

/-- The value of the second of two patterns in sequence. -/
def andThen {α β : Type} (a : Pattern α) (b : Pattern β) : Pattern β :=
  .map (fun _ x => x.2) (.seq a b)

/-- The value of the first of two patterns in sequence. -/
def andSkip {α β : Type} (a : Pattern α) (b : Pattern β) : Pattern α :=
  .map (fun _ x => x.1) (.seq a b)

/-- A given character. -/
def exactly (c : Char) : Pattern Char := .char (· == c)

end Pattern

end TapeLang
