import Mathlib
import TapeLang.Proofs.Calls

/-!
# How far the tapes grow

A tape stores its first contents and every cell from there to the places at which its head has read. A
head that moves does not store the cell to which it comes; that is left to the next step, if there is one.

* `Tape.stretch`: bounds, widened just so far that they enclose a position;
* `Tape.bounds_reach`, `Tape.bounds_write`: what reaching and writing a cell does to the bounds of a tape;
* `Machine.Sound.map_bounds`, `Machine.Sound.bounds_of_stored`: what one step does to the bounds of the tapes;
* `Machine.readPositions`: where a head stood when the machine read;
* `Machine.Grown`: the bounds enclose the first contents and these positions, and nothing else;
* `tapes_grow_as_heads_read`: they do so after any number of steps, and no head is far from them.
-/

namespace TapeLang

/-! ### One tape -/

namespace Tape

variable {t : Tape}

/-- Bounds, widened just so far that they enclose a position. -/
def stretch (bounds : Int × Int) (position : Int) : Int × Int :=
  (min bounds.1 position, max bounds.2 (position + 1))

theorem bounds_ofList (row : List Symbol) (blank : Symbol) :
    (ofList row blank).bounds = (0, (row.length : Int)) := by
  simp [bounds, offset, ofList]

theorem bounds_reach (h : t.blank.length = 1) (position : Int) :
    (t.reach position).bounds = stretch t.bounds position := by
  cases position with
  | ofNat n =>
    have hsize : (extend t.blank t.right (n + 1)).size = max t.right.size (n + 1) := size_extend h _ _
    refine Prod.ext ?_ ?_
    · show -(t.left.size : Int) = min (-(t.left.size : Int)) n
      omega
    · show ((extend t.blank t.right (n + 1)).size : Int) = max (t.right.size : Int) (n + 1)
      omega
  | negSucc n =>
    have hsize : (extend t.blank t.left (n + 1)).size = max t.left.size (n + 1) := size_extend h _ _
    refine Prod.ext ?_ ?_
    · show -((extend t.blank t.left (n + 1)).size : Int) = min (-(t.left.size : Int)) (Int.negSucc n)
      omega
    · show (t.right.size : Int) = max (t.right.size : Int) (Int.negSucc n + 1)
      omega

theorem bounds_put (t : Tape) (position : Int) (s : Symbol) : (t.put position s).bounds = t.bounds := by
  cases position <;> simp [put, bounds, offset]

theorem bounds_write (h : t.blank.length = 1) (position : Int) (s : Symbol) :
    (t.write position s).bounds = stretch t.bounds position := by
  rw [write, bounds_put, bounds_reach h]

/-- Bounds that enclose a position need not be widened. -/
theorem stretch_eq_self {bounds : Int × Int} {position : Int} (hstart : bounds.1 ≤ position)
    (hend : position < bounds.2) : stretch bounds position = bounds :=
  Prod.ext (min_eq_left hstart) (max_eq_left hend)

/-- The position is on a stored cell or right beside one. -/
def Near (position : Int) (bounds : Int × Int) : Prop :=
  bounds.1 - 1 ≤ position ∧ position ≤ bounds.2

/-- A head that moves from a stored cell is still near. -/
theorem near_stretch (bounds : Int × Int) (position : Int) (d : Direction) :
    Near (position + d.delta) (stretch bounds position) := by
  unfold Near stretch
  cases d <;> simp only [Direction.delta] <;> omega

end Tape

/-! ### One step -/

namespace Machine

section Cells

variable {ts : List Tape} {hs : List Int} {ws : List Symbol}

theorem map_bounds_reachCells (hblank : ∀ t ∈ ts, t.blank.length = 1) (hhs : hs.length = ts.length) :
    (reachCells ts hs).map Tape.bounds = List.zipWith Tape.stretch (ts.map Tape.bounds) hs := by
  induction ts generalizing hs with
  | nil => cases hs <;> rfl
  | cons t ts ih =>
    rw [List.forall_mem_cons] at hblank
    obtain ⟨h, hs, rfl⟩ := List.exists_cons_of_length_eq_add_one hhs
    simp only [List.length_cons, Nat.add_right_cancel_iff] at hhs
    simp only [reachCells, List.map_cons, List.zipWith_cons_cons, Tape.bounds_reach hblank.1,
      ih hblank.2 hhs]

theorem map_bounds_writeCells (hblank : ∀ t ∈ ts, t.blank.length = 1) (hhs : hs.length = ts.length)
    (hws : ws.length = ts.length) :
    (writeCells ts hs ws).map Tape.bounds = List.zipWith Tape.stretch (ts.map Tape.bounds) hs := by
  unfold writeCells
  induction ts generalizing hs ws with
  | nil => rfl
  | cons t ts ih =>
    rw [List.forall_mem_cons] at hblank
    obtain ⟨h, hs, rfl⟩ := List.exists_cons_of_length_eq_add_one hhs
    obtain ⟨w, ws, rfl⟩ := List.exists_cons_of_length_eq_add_one hws
    simp only [List.length_cons, Nat.add_right_cancel_iff] at hhs hws
    simp only [List.zip_cons_cons, List.zipWith_cons_cons, List.map_cons,
      Tape.bounds_write hblank.1, ih hblank.2 hhs hws]

end Cells

variable {m m' : Machine} {o : Outcome}

/-- **A running machine widens the bounds of each tape to where its head stands before the step.** The
move does not matter. -/
theorem Sound.map_bounds (hm : m.Sound) (hrun : m.status = .running) (h : m.Takes o m') :
    m'.tapes.map Tape.bounds = List.zipWith Tape.stretch (m.tapes.map Tape.bounds) m.heads := by
  cases h with
  | rests stopped => exact absurd hrun stopped
  | sticks => exact map_bounds_reachCells hm.blank hm.heads
  | fires _ fits => exact map_bounds_writeCells hm.blank hm.heads (hm.sized_of_transition? fits).1

/-- The bounds of one tape after a step. -/
theorem Sound.bounds_advance (hm : m.Sound) (hrun : m.status = .running) {i : Nat} {t : Tape}
    (ht : m.tapes[i]? = some t) :
    ∃ head t', m.heads[i]? = some head ∧ m.advance.tapes[i]? = some t' ∧
      t'.bounds = Tape.stretch t.bounds head := by
  obtain ⟨head, hhead⟩ : ∃ head, m.heads[i]? = some head := by
    obtain ⟨hi, -⟩ := List.getElem?_eq_some_iff.1 ht
    exact ⟨_, List.getElem?_eq_getElem (hm.heads.symm ▸ hi)⟩
  obtain ⟨o, -, htakes⟩ := hm.step_eq
  have hbounds := congrArg (fun l : List (Int × Int) => l[i]?) (hm.map_bounds hrun htakes)
  simp only [List.getElem?_map, List.getElem?_zipWith, ht, hhead, Option.map_some] at hbounds
  obtain ⟨t', ht', heq⟩ := Option.map_eq_some_iff.1 hbounds
  exact ⟨head, t', hhead, ht', heq⟩

theorem advance_of_stopped (h : m.status ≠ .running) : m.advance = m :=
  congrArg Prod.snd (step_of_stopped (isRunning_eq_false_iff.2 h))

/-- **A step from a stored cell stores no other cell,** wherever the head moves. -/
theorem Sound.bounds_of_stored (hm : m.Sound) {i : Nat} {t : Tape} {head : Int}
    (ht : m.tapes[i]? = some t) (hhead : m.heads[i]? = some head) (hfirst : t.bounds.1 ≤ head)
    (hlast : head < t.bounds.2) : ∃ t', m.advance.tapes[i]? = some t' ∧ t'.bounds = t.bounds := by
  by_cases hrun : m.status = .running
  · obtain ⟨head', t', hhead', ht', heq⟩ := hm.bounds_advance hrun ht
    obtain rfl : head = head' := Option.some.inj (hhead.symm.trans hhead')
    exact ⟨t', ht', heq.trans (Tape.stretch_eq_self hfirst hlast)⟩
  · exact ⟨t, by rw [advance_of_stopped hrun, ht], rfl⟩

/-- Each head is on a stored cell of its tape or right beside one. -/
def HeadsNear (m : Machine) : Prop :=
  List.Forall₂ (fun head t => Tape.Near head t.bounds) m.heads m.tapes

/-- After the heads have read, they are near wherever they move. -/
theorem near_moveHeads {hs : List Int} {bs : List (Int × Int)} {ds : List Direction}
    (hbs : bs.length = hs.length) (hds : ds.length = hs.length) :
    List.Forall₂ Tape.Near (moveHeads hs ds) (List.zipWith Tape.stretch bs hs) := by
  unfold moveHeads
  induction hs generalizing bs ds with
  | nil => simp
  | cons h hs ih =>
    obtain ⟨b, bs, rfl⟩ := List.exists_cons_of_length_eq_add_one hbs
    obtain ⟨d, ds, rfl⟩ := List.exists_cons_of_length_eq_add_one hds
    simp only [List.length_cons, Nat.add_right_cancel_iff] at hbs hds
    exact .cons (Tape.near_stretch b h d) (ih hbs hds)

/-- **No step takes a head away from the stored cells.** -/
theorem HeadsNear.takes (hm : m.Sound) (hnear : m.HeadsNear) (h : m.Takes o m') : m'.HeadsNear := by
  have hbs : (m.tapes.map Tape.bounds).length = m.heads.length := by rw [List.length_map, hm.heads]
  cases h with
  | rests => exact hnear
  | sticks running fits =>
    -- the heads stay, as if all of them had moved by nothing
    have hstay : moveHeads m.heads (List.replicate m.heads.length .stay) = m.heads := by
      apply List.ext_getElem
      · simp [moveHeads]
      · simp [moveHeads, Direction.delta]
    have hall := near_moveHeads hbs (List.length_replicate (a := Direction.stay))
    rw [hstay, ← hm.map_bounds running (.sticks running fits)] at hall
    exact List.forall₂_map_right_iff.1 hall
  | fires running fits =>
    have hmove := (hm.sized_of_transition? fits).2.trans hm.heads.symm
    have hall := near_moveHeads hbs hmove
    rw [← hm.map_bounds running (.fires running fits)] at hall
    exact List.forall₂_map_right_iff.1 hall

/-! ### Any number of steps -/

/-- The positions at which a head stood at the beginning of one of the first `n` steps, if the machine was
running. -/
def readPositions (m : Machine) (i n : Nat) : Set Int :=
  {x | ∃ k < n, (advance^[k] m).status = .running ∧ (advance^[k] m).heads[i]? = some x}

theorem readPositions_zero (m : Machine) (i : Nat) : m.readPositions i 0 = ∅ := by
  simp [readPositions]

theorem readPositions_succ_of_running {i n : Nat} {head : Int}
    (hrun : (advance^[n] m).status = .running) (hhead : (advance^[n] m).heads[i]? = some head) :
    m.readPositions i (n + 1) = insert head (m.readPositions i n) := by
  ext x
  simp only [readPositions, Set.mem_ofPred_eq, Set.mem_insert_iff, Nat.lt_succ_iff_lt_or_eq]
  constructor
  · rintro ⟨k, hk | rfl, hrun', hx⟩
    · exact .inr ⟨k, hk, hrun', hx⟩
    · exact .inl (Option.some.inj (hx.symm.trans hhead))
  · rintro (rfl | ⟨k, hk, hrun', hx⟩)
    · exact ⟨n, .inr rfl, hrun, hhead⟩
    · exact ⟨k, .inl hk, hrun', hx⟩

theorem readPositions_succ_of_stopped {i n : Nat} (hstop : (advance^[n] m).status ≠ .running) :
    m.readPositions i (n + 1) = m.readPositions i n := by
  ext x
  simp only [readPositions, Set.mem_ofPred_eq, Nat.lt_succ_iff_lt_or_eq]
  constructor
  · rintro ⟨k, hk | rfl, hrun, hx⟩
    · exact ⟨k, hk, hrun, hx⟩
    · exact absurd hrun hstop
  · rintro ⟨k, hk, hrun, hx⟩
    exact ⟨k, .inl hk, hrun, hx⟩

/-- The bounds enclose `length` cells from position zero on and the positions read, and reach no farther. -/
structure Grown (length : Nat) (read : Set Int) (bounds : Int × Int) : Prop where
  start : IsLeast (insert 0 read) bounds.1
  stop : IsGreatest (insert (length : Int) ((· + 1) '' read)) bounds.2

theorem grown_empty (length : Nat) : Grown length ∅ (0, (length : Int)) := by
  constructor
  · rw [insert_empty_eq]
    exact isLeast_singleton
  · rw [Set.image_empty, insert_empty_eq]
    exact isGreatest_singleton

/-- One more position is read. -/
theorem Grown.stretch {length : Nat} {read : Set Int} {bounds : Int × Int}
    (h : Grown length read bounds) (position : Int) :
    Grown length (insert position read) (Tape.stretch bounds position) := by
  constructor
  · rw [Set.insert_comm, Tape.stretch, min_comm]
    exact h.start.insert position
  · rw [Set.image_insert_eq, Set.insert_comm, Tape.stretch, max_comm]
    exact h.stop.insert (position + 1)

/-- **The bounds of a tape after any number of steps.** -/
theorem Sound.grown (hm : m.Sound) {i length : Nat} {t : Tape} (ht : m.tapes[i]? = some t)
    (hbounds : t.bounds = (0, (length : Int))) (n : Nat) :
    ∃ t, (Machine.advance^[n] m).tapes[i]? = some t ∧ Grown length (m.readPositions i n) t.bounds := by
  induction n with
  | zero =>
    refine ⟨t, ht, ?_⟩
    rw [readPositions_zero, hbounds]
    exact grown_empty length
  | succ n ih =>
    obtain ⟨t, ht, hgrown⟩ := ih
    rw [Function.iterate_succ_apply']
    by_cases hrun : (Machine.advance^[n] m).status = .running
    · obtain ⟨head, t', hhead, ht', heq⟩ := (hm.iterate n).bounds_advance hrun ht
      refine ⟨t', ht', ?_⟩
      rw [readPositions_succ_of_running hrun hhead, heq]
      exact hgrown.stretch head
    · rw [advance_of_stopped hrun, readPositions_succ_of_stopped hrun]
      exact ⟨t, ht, hgrown⟩

end Machine

/-- **The tapes grow exactly as far as the heads have read.** Take a program that has been read and built
from a text, on its own tapes or on others. After any number of steps of its machine the stored cells of a
tape begin at the least of zero and the positions at which its head has read, and end behind the last of its
first contents and these positions. So a step from a stored cell stores no other cell, wherever the head
moves. If each head starts on its row or right behind it, then in every machine that any calls and resets
lead to, each head is on a stored cell or right beside one. -/
theorem tapes_grow_as_heads_read (text : List Char) (file : String) (tree : Ast.Program) (p q : Program)
    (hparse : parse text file = .ok tree) (hbuild : build tree = .ok p)
    (hq : q = p ∨ ∃ rows, p.withTapes rows = .ok q) (mode : Mode) (config : Config) :
    let m := Machine.start q mode config
    (∀ n i row, q.tapes[i]? = some row →
      ∃ t, (Machine.advance^[n] m).tapes[i]? = some t ∧
        IsLeast (insert 0 (m.readPositions i n)) t.bounds.1 ∧
        IsGreatest (insert (row.length : Int) ((· + 1) '' m.readPositions i n)) t.bounds.2) ∧
      (∀ (n i : Nat) (t : Tape) (head : Int), (Machine.advance^[n] m).tapes[i]? = some t →
        (Machine.advance^[n] m).heads[i]? = some head → t.bounds.1 ≤ head → head < t.bounds.2 →
        ∃ t', (Machine.advance^[n + 1] m).tapes[i]? = some t' ∧ t'.bounds = t.bounds) ∧
      (List.Forall₂ (fun head row => 0 ≤ head ∧ head ≤ row.length) q.heads q.tapes →
        ∀ fired m', Machine.Reached q mode config fired m' →
          List.Forall₂ (fun head t => t.bounds.1 - 1 ≤ head ∧ head ≤ t.bounds.2) m'.heads m'.tapes) := by
  intro m
  have hsound : m.Sound := (wellFormed_of_input hparse hbuild hq).sound_start mode config
  refine ⟨?_, ?_, ?_⟩
  · intro n i row hrow
    have ht : m.tapes[i]? = some (Tape.ofList row q.blank) := by simp [m, Machine.start, hrow]
    obtain ⟨t, ht, hgrown⟩ := hsound.grown ht (Tape.bounds_ofList row q.blank) n
    exact ⟨t, ht, hgrown.start, hgrown.stop⟩
  · intro n i t head ht hhead hfirst hlast
    rw [Function.iterate_succ_apply']
    exact (hsound.iterate n).bounds_of_stored ht hhead hfirst hlast
  · intro hheads fired m' hm'
    obtain ⟨n, rfl⟩ := hm'.exists_iterate hsound
    have hstart : m.HeadsNear := by
      refine List.forall₂_map_right_iff.2 (hheads.imp fun head row h => ?_)
      rw [Tape.bounds_ofList]
      exact ⟨by omega, h.2⟩
    exact (hsound.advance_induction (P := fun _ m => m.HeadsNear) hstart
      (fun hm hnear htakes => hnear.takes hm htakes) n).2

/-- A text whose heads walk off their tapes, one to the right and one to the left. -/
def walkApart : List Char :=
  ("tapes:\n  [a]\n  [b, c]\nheads: [1, 0]\nrules:\n  q:\n" ++
    "    [_, b] -> [x, b], [R, L], q\n    [_, _] -> [x, y], [R, L], q\n").toList

/-- After two steps both heads stand right beside the stored cells. -/
theorem tapes_grow_as_heads_read_walk_apart :
    ∃ tree p, parse walkApart "m" = .ok tree ∧ build tree = .ok p ∧
      (∃ t, (Machine.advance^[2] (Machine.start p .normal {})).tapes[1]? = some t ∧
        t.bounds = (-1, 2) ∧ IsLeast (insert 0 ((Machine.start p .normal {}).readPositions 1 2)) (-1)) ∧
      List.Forall₂ (fun head row => 0 ≤ head ∧ head ≤ row.length) p.heads p.tapes ∧
      (Machine.advance^[2] (Machine.start p .normal {})).heads = [3, -2] ∧
      List.Forall₂ (fun head t => t.bounds.1 - 1 ≤ head ∧ head ≤ t.bounds.2)
        (Machine.advance^[2] (Machine.start p .normal {})).heads
        (Machine.advance^[2] (Machine.start p .normal {})).tapes := by
  have heval : ((parse walkApart "m").toOption.bind fun tree => (build tree).toOption.map fun p =>
      (p.heads, p.tapes, (Machine.advance^[2] (Machine.start p .normal {})).heads,
        (Machine.advance^[2] (Machine.start p .normal {})).tapes.map Tape.bounds)) =
      some ([1, 0], [["a"], ["b", "c"]], [3, -2], [(0, 3), (-1, 2)]) := by
    decide +kernel
  simp only [Option.bind_eq_some_iff, Option.map_eq_some_iff, toOption_eq_some_iff, Prod.mk.injEq]
    at heval
  obtain ⟨tree, hparse, p, hbuild, hheads, htapes, hheads', hbounds⟩ := heval
  obtain ⟨hgrown, -, hnear⟩ := tapes_grow_as_heads_read walkApart "m" tree p p hparse hbuild (.inl rfl)
    .normal {}
  have hplaced : List.Forall₂ (fun head row => 0 ≤ head ∧ head ≤ row.length) p.heads p.tapes := by
    rw [hheads, htapes]
    decide
  obtain ⟨t, ht, hleast, -⟩ := hgrown 2 1 ["b", "c"] (by rw [htapes]; rfl)
  have htape : t.bounds = (-1, 2) := by
    have hsecond := congrArg (fun l : List (Int × Int) => l[1]?) hbounds
    simp only [List.getElem?_map, ht] at hsecond
    exact Option.some.inj hsecond
  have hreached : Machine.Reached p .normal {} _ (Machine.advance^[2] (Machine.start p .normal {})) :=
    (Machine.Reached.start.call .step).call .step
  refine ⟨tree, p, hparse, hbuild, ⟨t, ht, htape, ?_⟩, hplaced, hheads', hnear hplaced _ _ hreached⟩
  rwa [htape] at hleast

end TapeLang
