import Mathlib
import TapeLang.Proofs.Growth
import TapeLang.Proofs.Window

/-!
# A tape is a map on all integers

A tape is read, written and looked at in any order and at any positions. What its two arrays then store
is a function from all integers to symbols, the one that the history of accesses gives.

* `Tape.Access`, `Tape.access?`, `Tape.accessAll?`: the accesses, which may fail;
* `Tape.access?_eq`, `Tape.peek_after`, `Tape.bounds_after`: what one access does to a tape whose blank symbol
  is a single character;
* `Tape.lastSet`, `Tape.valueAfter`: the function that a history gives;
* `Tape.Stores`: every view of a tape shows a given function, the counts included;
* `tape_is_total_map`: it shows that of its history, after any history.
-/

namespace TapeLang

namespace Tape

/-- What can be done at a position of a tape. -/
inductive Access where
  | get (position : Int)
  | set (position : Int) (s : Symbol)
  | peek (position : Int)
  deriving DecidableEq, Repr

/-- The symbol that an access writes at a position, if it does so. -/
def Access.writes? : Access → Int → Option Symbol
  | .set q s, p => if p = q then some s else none
  | _, _ => none

/-- The symbol that an access gives, if it is there to give one, and the tape after it. There is none if the
access fails. -/
def access? (t : Tape) : Access → Option (Option Symbol × Tape)
  | .get p => (t.read? p).map fun r => (some r.1, r.2)
  | .set p s => (t.write? p s).map fun t => (none, t)
  | .peek p => some (some (t.peek p), t)

/-- The tape after some accesses, unless one of them fails. -/
def accessAll? (t : Tape) : List Access → Option Tape
  | [] => some t
  | a :: as => (t.access? a).bind fun r => r.2.accessAll? as

/-! ### One access -/

/-- The tape after an access that does not fail. -/
def after (t : Tape) : Access → Tape
  | .get p => t.reach p
  | .set p s => t.write p s
  | .peek _ => t

/-- What an access gives if it does not fail. -/
def answer (t : Tape) : Access → Option Symbol
  | .get p | .peek p => some (t.peek p)
  | .set _ _ => none

variable {t : Tape}

/-- **No access fails.** -/
theorem access?_eq (h : t.blank.length = 1) (a : Access) :
    t.access? a = some (t.answer a, t.after a) := by
  cases a with
  | get p => rw [access?, read?_eq h]; rfl
  | set p s =>
    have hstored : ((t.reach p).cell? p).isSome = true := by rw [cell?_reach h]; rfl
    rw [access?, write?, if_pos hstored]
    rfl
  | peek p => rfl

@[simp]
theorem blank_after (t : Tape) (a : Access) : (t.after a).blank = t.blank := by
  cases a <;> simp [after]

/-- **An access changes the tape only where it writes.** -/
theorem peek_after (h : t.blank.length = 1) (a : Access) (p : Int) :
    (t.after a).peek p = (a.writes? p).getD (t.peek p) := by
  cases a with
  | get q => rw [after, peek_reach h]; rfl
  | set q s =>
    rw [after, peek_write h, Function.update_apply, Access.writes?]
    split <;> rfl
  | peek q => rfl

/-- **No access makes the bounds narrower.** -/
theorem bounds_after (h : t.blank.length = 1) (a : Access) :
    (t.after a).bounds.1 ≤ t.bounds.1 ∧ t.bounds.2 ≤ (t.after a).bounds.2 := by
  cases a with
  | get p => rw [after, bounds_reach h]; exact ⟨min_le_left _ _, le_max_left _ _⟩
  | set p s => rw [after, bounds_write h]; exact ⟨min_le_left _ _, le_max_left _ _⟩
  | peek p => exact ⟨le_rfl, le_rfl⟩

/-! ### Any number of accesses -/

theorem accessAll?_eq (h : t.blank.length = 1) (as : List Access) :
    t.accessAll? as = some (as.foldl after t) := by
  induction as generalizing t with
  | nil => rfl
  | cons a as ih =>
    rw [accessAll?, access?_eq h, Option.bind_some, ih (by rwa [blank_after])]
    rfl

theorem blank_foldl_after (t : Tape) (as : List Access) : (as.foldl after t).blank = t.blank := by
  induction as generalizing t with
  | nil => rfl
  | cons a as ih => rw [List.foldl_cons, ih, blank_after]

/-- The symbol that was last written at a position. -/
def lastSet (history : List Access) (p : Int) : Option Symbol :=
  history.reverse.findSome? (Access.writes? · p)

/-- The last symbol written at a position, or else what the tape had there in the beginning. -/
def valueAfter (blank : Symbol) (row : List Symbol) (history : List Access) (p : Int) : Symbol :=
  (lastSet history p).getD (contents blank row p)

theorem lastSet_cons (a : Access) (as : List Access) (p : Int) :
    lastSet (a :: as) p = (lastSet as p).or (a.writes? p) := by
  simp [lastSet, List.findSome?_append]

theorem peek_foldl_after (h : t.blank.length = 1) (as : List Access) (p : Int) :
    (as.foldl after t).peek p = (lastSet as p).getD (t.peek p) := by
  induction as generalizing t with
  | nil => rfl
  | cons a as ih =>
    rw [List.foldl_cons, ih (by rwa [blank_after]), peek_after h, lastSet_cons]
    cases lastSet as p <;> rfl

theorem bounds_foldl_after (h : t.blank.length = 1) (as : List Access) :
    (as.foldl after t).bounds.1 ≤ t.bounds.1 ∧ t.bounds.2 ≤ (as.foldl after t).bounds.2 := by
  induction as generalizing t with
  | nil => exact ⟨le_rfl, le_rfl⟩
  | cons a as ih =>
    obtain ⟨hfirst, hlast⟩ := bounds_after h a
    obtain ⟨hfirst', hlast'⟩ := ih (t := t.after a) (by rwa [blank_after])
    exact ⟨hfirst'.trans hfirst, hlast.trans hlast'⟩

/-! ### The views of a tape -/

/-- How many positions in a window hold a symbol of a kind. -/
theorem encard_window (f : Int → Symbol) (first last : Int) (kind : Symbol → Bool) :
    {p | first ≤ p ∧ p < last ∧ kind (f p) = true}.encard = (window f first last).countP kind := by
  have hnodup : (Int.range first last).Nodup := by
    refine List.nodup_range.map fun i j hij => ?_
    simpa using hij
  have hset : {p | first ≤ p ∧ p < last ∧ kind (f p) = true} =
      ((Int.range first last).filter (kind ∘ f)).toFinset := by
    ext p
    simp [Int.mem_range_iff, and_assoc]
  rw [hset, Set.encard_coe_eq_coe_finsetCard, List.toFinset_card_of_nodup (hnodup.filter _), window,
    List.countP_map, List.countP_eq_length_filter]

/-- The stored cells hold every symbol of a kind to which the blank symbol does not belong. -/
theorem encard_peek (t : Tape) (kind : Symbol → Bool) (hblank : kind t.blank = false) :
    {p | kind (t.peek p) = true}.encard = t.symbols.countP kind := by
  rw [symbols_eq_window, ← encard_window]
  congr 1
  ext p
  constructor
  · intro hp
    have hinside : ¬(p < t.bounds.1 ∨ t.bounds.2 ≤ p) := by
      intro houtside
      rw [Set.mem_ofPred_eq, peek_of_outside houtside, hblank] at hp
      cases hp
    rw [not_or, not_lt, not_le] at hinside
    exact ⟨hinside.1, hinside.2, hp⟩
  · exact fun hp => hp.2.2

theorem count_symbols (t : Tape) (s : Symbol) : t.symbols.count s = t.count s := by
  simp [symbols, count]

theorem length_symbols (t : Tape) : t.symbols.length = t.size := by
  simp [symbols, size]

/-- Every view of the tape shows the function, which is blank almost everywhere: the cells, their places and
the counts. -/
structure Stores (t : Tape) (blank : Symbol) (f : Int → Symbol) : Prop where
  blank_eq : t.blank = blank
  value : ∀ p, t.peek p = f p
  bounds : t.bounds = (t.offset, t.offset + t.size)
  length : t.symbols.length = t.size
  symbols : ∀ (k : Nat) (hk : k < t.symbols.length), t.symbols[k] = f (t.offset + k)
  outside : ∀ p, p < t.bounds.1 ∨ t.bounds.2 ≤ p → f p = blank
  count : ∀ s, s ≠ blank → {p | f p = s}.encard = t.count s
  nonBlank : {p | f p ≠ blank}.encard = t.nonBlank

/-- **All views of a tape agree.** -/
theorem stores_peek (t : Tape) : t.Stores t.blank t.peek where
  blank_eq := rfl
  value _ := rfl
  bounds := by
    refine Prod.ext rfl ?_
    simp only [bounds, offset, size]
    omega
  length := t.length_symbols
  symbols k hk := by
    have hcell : t.symbols[k]? = (window t.peek t.bounds.1 t.bounds.2)[k]? := by rw [symbols_eq_window]
    rw [getElem?_window, List.getElem?_eq_getElem hk] at hcell
    split at hcell
    · exact Option.some.inj hcell
    · cases hcell
  outside p hp := peek_of_outside hp
  count s hs := by
    have hcount := t.encard_peek (· == s) (by simpa using hs.symm)
    rw [← count_symbols, List.count]
    simpa only [beq_iff_eq] using hcount
  nonBlank := by
    have hcount := t.encard_peek (fun s => decide ¬(s == t.blank) = true) (by simp)
    have hsplit := List.length_eq_countP_add_countP (· == t.blank) (l := t.symbols)
    rw [nonBlank, ← length_symbols, ← count_symbols, hsplit, List.count, Nat.add_sub_cancel_left, ← hcount]
    simp

theorem stores_of_peek {blank : Symbol} {f : Int → Symbol} (hblank : t.blank = blank)
    (h : ∀ p, t.peek p = f p) : t.Stores blank f := by
  obtain rfl : t.peek = f := funext h
  rw [← hblank]
  exact t.stores_peek

/-- **After any history a tape shows the function that the history gives.** -/
theorem stores_foldl_after {blank : Symbol} (h : blank.length = 1) (row : List Symbol)
    (history : List Access) :
    (history.foldl after (ofList row blank)).Stores blank (valueAfter blank row history) := by
  refine stores_of_peek (blank_foldl_after _ _) fun p => ?_
  rw [peek_foldl_after h, peek_ofList]
  rfl

end Tape

open Tape in
/-- **A tape is a map on all integers.** Take a tape with any contents and a blank symbol of one character,
and read it, write on it and look at it in any order and anywhere. No access fails. At every position the
tape then has the symbol last written there, or else its first contents, or else the blank symbol, and its
cells, bounds and counts are those of this function. The next access gives the symbol at its position; only
writing changes the function, and only at its position; looking changes nothing. The bounds never shrink. -/
theorem tape_is_total_map (row : List Symbol) (blank : Symbol) (hblank : blank.length = 1)
    (history : List Access) :
    ∃ t, (ofList row blank).accessAll? history = some t ∧
      t.Stores blank (valueAfter blank row history) ∧
      (∀ p, ∃ t', t.access? (.get p) = some (some (valueAfter blank row history p), t') ∧
        t'.Stores blank (valueAfter blank row history)) ∧
      (∀ p s, ∃ t', t.access? (.set p s) = some (none, t') ∧
        t'.Stores blank (Function.update (valueAfter blank row history) p s)) ∧
      (∀ p, t.access? (.peek p) = some (some (valueAfter blank row history p), t)) ∧
      ∀ later, ∃ t', t.accessAll? later = some t' ∧ t'.bounds.1 ≤ t.bounds.1 ∧ t.bounds.2 ≤ t'.bounds.2 := by
  have hstores := stores_foldl_after hblank row history
  refine ⟨_, accessAll?_eq hblank history, hstores, ?_⟩
  generalize history.foldl after (ofList row blank) = t at hstores ⊢
  have hsingle : t.blank.length = 1 := by rw [hstores.blank_eq, hblank]
  refine ⟨fun p => ?_, fun p s => ?_, fun p => ?_, fun later => ?_⟩
  · refine ⟨t.reach p, ?_, ?_⟩
    · rw [access?_eq hsingle, ← hstores.value]
      rfl
    · refine stores_of_peek (by rw [blank_reach, hstores.blank_eq]) fun q => ?_
      rw [peek_reach hsingle, hstores.value]
  · refine ⟨t.write p s, access?_eq hsingle _, ?_⟩
    refine stores_of_peek (by rw [blank_write, hstores.blank_eq]) fun q => ?_
    rw [peek_write hsingle, funext hstores.value]
  · rw [access?_eq hsingle, ← hstores.value]
    rfl
  · exact ⟨_, accessAll?_eq hsingle later, bounds_foldl_after hsingle later⟩

/-- Cells are stored on both sides of the first contents, one of them is written twice, and one of the first
contents becomes blank. -/
theorem tape_is_total_map_both_sides :
    ".".length = 1 ∧ ∃ t, (Tape.ofList ["a", "b"] ".").accessAll?
        [.set (-2) "x", .get 3, .set 0 ".", .peek (-9), .set (-2) "y"] = some t ∧
      t.bounds = (-2, 4) ∧ t.symbols = ["y", ".", ".", "b", ".", "."] ∧ t.peek (-2) = "y" ∧
      {p | t.peek p ≠ "."}.encard = 2 ∧
      ∃ t', t.access? (.get (-4)) = some (some ".", t') ∧ t'.peek (-2) = "y" := by
  have heval : ((Tape.ofList ["a", "b"] ".").accessAll?
      [.set (-2) "x", .get 3, .set 0 ".", .peek (-9), .set (-2) "y"]).map
        (fun t => (t.bounds, t.symbols, t.nonBlank)) =
      some ((-2, 4), ["y", ".", ".", "b", ".", "."], 2) := by decide +kernel
  obtain ⟨t, ht, hstores, hget, -⟩ := tape_is_total_map ["a", "b"] "." rfl
    [.set (-2) "x", .get 3, .set 0 ".", .peek (-9), .set (-2) "y"]
  simp only [ht, Option.map_some, Option.some.injEq, Prod.mk.injEq] at heval
  obtain ⟨hbounds, hsymbols, hcount⟩ := heval
  obtain ⟨t', hread, hstores'⟩ := hget (-4)
  refine ⟨rfl, t, ht, hbounds, hsymbols, hstores.value (-2), ?_, t', hread, hstores'.value (-2)⟩
  rw [funext hstores.value, hstores.nonBlank, hcount]
  rfl

end TapeLang
