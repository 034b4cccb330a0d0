import Mathlib
import TapeLang.CommandLine.Execute
import TapeLang.Proofs.Content
import TapeLang.Proofs.Window

/-!
# Stored blanks do not matter

A tape may store more or fewer of its blank cells. No machine notices the difference, and neither does
anybody who reads what is printed of the tapes in the end.

* `Tape.IsPrinted`: the text of the cells from the leftmost to the rightmost that is not blank;
* `Tape.isPrinted_printedTape`: it is what the stored cells come to without the blanks at their ends;
* `Machine.Agree`, `Machine.Agree.takes`: machines with the same symbols on their tapes make the same steps;
* `Machine.printedTapes`, `Machine.out_finish`: what the command `run` prints of the tapes in the end;
* `stored_blanks_do_not_matter`: a program on its tapes and on the same tapes with blanks behind them.
-/

namespace TapeLang

/-! ### What is printed of a tape -/

theorem Text.dropEnds_eq_nil {p : Char → Bool} {s : List Char} (h : ∀ c ∈ s, p c = true) :
    dropEnds p s = [] := by
  rw [dropEnds, List.dropWhile_eq_nil_iff.2 h]
  rfl

/-- What stands between two runs of characters of a class, and neither begins nor ends with one. -/
theorem Text.dropEnds_append {p : Char → Bool} {before s after : List Char}
    (hbefore : ∀ c ∈ before, p c = true) (hafter : ∀ c ∈ after, p c = true)
    (hhead : ∀ c ∈ s.head?, p c = false) (hlast : ∀ c ∈ s.getLast?, p c = false) :
    dropEnds p (before ++ (s ++ after)) = s := by
  rw [dropEnds, List.dropWhile_append_of_pos hbefore]
  cases s with
  | nil =>
    rw [List.nil_append, List.dropWhile_eq_nil_iff.2 hafter]
    rfl
  | cons c s =>
    have hhead' : ∀ c' ∈ (c :: s ++ after).head?, p c' = false := hhead
    have hafter' : ∀ c' ∈ after.reverse, p c' = true := fun c' hc' => hafter c' (List.mem_reverse.1 hc')
    rw [dropWhile_eq_self hhead', dropWhileEnd, List.reverse_append, List.dropWhile_append_of_pos hafter',
      dropWhile_eq_self (by rwa [List.head?_reverse]), List.reverse_reverse]

namespace Tape

/-- The text is that of the cells from the leftmost to the rightmost that is not blank, and empty if all
cells are. -/
def IsPrinted (blank : Symbol) (f : Int → Symbol) (s : String) : Prop :=
  (∀ p, f p = blank) ∧ s = "" ∨
    ∃ first last, IsLeast {p | f p ≠ blank} first ∧ IsGreatest {p | f p ≠ blank} last ∧
      s = String.join ((Int.range first (last + 1)).map f)

variable {blank : Symbol} {f : Int → Symbol} {first last start stop : Int}

theorem rightUnique_isPrinted (blank : Symbol) : Relator.RightUnique (IsPrinted blank) := by
  rintro f s s' (⟨hall, rfl⟩ | ⟨first, last, hfirst, hlast, rfl⟩) h'
  · rcases h' with ⟨-, rfl⟩ | ⟨first, -, hfirst, -⟩
    · rfl
    · exact absurd (hall first) hfirst.1
  · rcases h' with ⟨hall, -⟩ | ⟨first', last', hfirst', hlast', rfl⟩
    · exact absurd (hall first) hfirst.1
    · rw [hfirst.unique hfirst', hlast.unique hlast']

/-- A window of blank cells has no character that is printed. -/
theorem blank_of_mem_window (h : ∀ p, first ≤ p → p < last → f p = blank) :
    ∀ c ∈ (String.join (window f first last)).toList, blank.toList.contains c = true := by
  intro c hc
  rw [String.toList_join, List.mem_flatMap] at hc
  obtain ⟨s, hs, hc⟩ := hc
  obtain ⟨p, hfirst, hlast, rfl⟩ := mem_window.1 hs
  rw [h p hfirst hlast] at hc
  simpa using hc

/-- The characters of a symbol that is not blank are printed. -/
theorem printed_of_ne_blank (hblank : blank.length = 1) {s : Symbol} (hs : s.length = 1) (h : s ≠ blank) :
    ∃ c, s.toList = [c] ∧ blank.toList.contains c = false := by
  obtain ⟨c, rfl⟩ := Text.exists_singleton hs
  obtain ⟨b, rfl⟩ := Text.exists_singleton hblank
  refine ⟨c, by simp, ?_⟩
  simpa using fun hcb : c = b => h (by rw [hcb])

/-- Printing a window leaves out the cells before the leftmost and behind the rightmost that is not blank. -/
theorem printedTape_window (hblank : blank.length = 1) (hsingle : ∀ p, (f p).length = 1)
    (hfirst : IsLeast {p | f p ≠ blank} first) (hlast : IsGreatest {p | f p ≠ blank} last)
    (hstart : start ≤ first) (hstop : last < stop) :
    CommandLine.printedTape blank (String.join (window f start stop)) =
      String.join (window f first (last + 1)) := by
  have horder : first ≤ last := hfirst.2 hlast.1
  have hbefore : ∀ p, start ≤ p → p < first → f p = blank := fun p _ hp =>
    not_not.1 fun hne => absurd (hfirst.2 hne) (by omega)
  have hafter : ∀ p, last + 1 ≤ p → p < stop → f p = blank := fun p hp _ =>
    not_not.1 fun hne => absurd (hlast.2 hne) (by omega)
  have hhead : ∃ cells, window f first (last + 1) = f first :: cells :=
    ⟨_, by rw [← window_append f (by omega : first ≤ first + 1) (by omega), window_singleton]; rfl⟩
  have hend : ∃ cells, window f first (last + 1) = cells ++ [f last] :=
    ⟨_, by rw [← window_append f horder (by omega : last ≤ last + 1), window_singleton]⟩
  obtain ⟨a, ha, haprinted⟩ := printed_of_ne_blank hblank (hsingle first) hfirst.1
  obtain ⟨z, hz, hzprinted⟩ := printed_of_ne_blank hblank (hsingle last) hlast.1
  have hsplit : (String.join (window f start stop)).toList =
      (String.join (window f start first)).toList ++ ((String.join (window f first (last + 1))).toList ++
        (String.join (window f (last + 1) stop)).toList) := by
    rw [← window_append f hstart (by omega : first ≤ stop),
      ← window_append f (by omega : first ≤ last + 1) (by omega : last + 1 ≤ stop)]
    simp only [String.toList_join, List.flatMap_append]
  rw [CommandLine.printedTape, hsplit, Text.dropEnds_append (blank_of_mem_window hbefore)
    (blank_of_mem_window hafter), String.ofList_toList]
  · intro c hc
    obtain ⟨cells, hcells⟩ := hhead
    rw [hcells, String.toList_join, List.flatMap_cons, ha] at hc
    obtain rfl : a = c := by simpa using hc
    exact haprinted
  · intro c hc
    obtain ⟨cells, hcells⟩ := hend
    rw [hcells, String.toList_join, List.flatMap_append, List.flatMap_singleton, hz] at hc
    obtain rfl : z = c := by simpa using hc
    exact hzprinted

/-- **What is printed of a tape** does not depend on which of its blank cells are stored. -/
theorem isPrinted_printedTape {t : Tape} (hblank : t.blank.length = 1)
    (hsingle : ∀ p, (t.peek p).length = 1) :
    IsPrinted t.blank t.peek (CommandLine.printedTape t.blank (String.join t.symbols)) := by
  have hinside : ∀ p, t.peek p ≠ t.blank → t.bounds.1 ≤ p ∧ p < t.bounds.2 := by
    intro p hp
    by_contra hout
    exact hp (peek_of_outside (by omega))
  rw [symbols_eq_window]
  by_cases hall : ∀ p, t.peek p = t.blank
  · refine .inl ⟨hall, ?_⟩
    rw [CommandLine.printedTape, Text.dropEnds_eq_nil (blank_of_mem_window fun p _ _ => hall p)]
  · obtain ⟨p, hp⟩ := not_forall.1 hall
    obtain ⟨first, hne, hfirst⟩ := Int.exists_least_of_bdd (P := fun p => t.peek p ≠ t.blank)
      ⟨t.bounds.1, fun p hp => (hinside p hp).1⟩ ⟨p, hp⟩
    obtain ⟨last, hne', hlast⟩ := Int.exists_greatest_of_bdd (P := fun p => t.peek p ≠ t.blank)
      ⟨t.bounds.2, fun p hp => (hinside p hp).2.le⟩ ⟨p, hp⟩
    have hleast : IsLeast {p | t.peek p ≠ t.blank} first := ⟨hne, fun p hp => hfirst p hp⟩
    have hgreatest : IsGreatest {p | t.peek p ≠ t.blank} last := ⟨hne', fun p hp => hlast p hp⟩
    refine .inr ⟨first, last, hleast, hgreatest, ?_⟩
    exact printedTape_window hblank hsingle hleast hgreatest (hinside first hne).1 (hinside last hne').2

end Tape

/-! ### Machines with the same symbols on their tapes -/

namespace Machine

/-- The same machine, except for which blank cells of its tapes are stored, now and at the beginning. -/
structure Agree (a b : Machine) : Prop where
  states : a.program.states = b.program.states
  mode : a.mode = b.mode
  state : a.state = b.state
  heads : a.heads = b.heads
  steps : a.steps = b.steps
  status : a.status = b.status
  tapes : a.tapes.map Tape.peek = b.tapes.map Tape.peek

variable {a a' b b' : Machine} {o o' : Outcome}

namespace Agree

theorem currentSymbols (h : Agree a b) : a.currentSymbols = b.currentSymbols := by
  have hview : ∀ m : Machine, m.currentSymbols =
      List.zipWith (fun f x => f x) (m.tapes.map Tape.peek) m.heads := by
    intro m
    rw [List.zipWith_map_left]
    rfl
  rw [hview a, hview b, h.tapes, h.heads]

theorem transition? (h : Agree a b) :
    a.program.transition? a.state a.currentSymbols = b.program.transition? b.state b.currentSymbols := by
  simp only [Program.transition?, Program.state?, h.states, h.state, h.currentSymbols]

theorem entryStatus (h : Agree a b) (name : String) :
    entryStatus a.program name = entryStatus b.program name := by
  have hhalts : a.program.haltsIn name = b.program.haltsIn name := by
    rw [Program.haltsIn, Program.state?, h.states]
    rfl
  rw [Machine.entryStatus, hhalts, Machine.entryStatus]

theorem stuck (ha : a.Sound) (hb : b.Sound) (h : Agree a b) : Agree a.stuck b.stuck :=
  { h with
    status := by
      show a.stuckStatus a.currentSymbols = b.stuckStatus b.currentSymbols
      rw [stuckStatus, stuckStatus, h.mode, h.state, h.currentSymbols]
    tapes := by
      show (reachCells a.tapes a.heads).map Tape.peek = (reachCells b.tapes b.heads).map Tape.peek
      rw [map_peek_reachCells ha.blank, map_peek_reachCells hb.blank, h.tapes] }

theorem fired (ha : a.Sound) (hb : b.Sound) (h : Agree a b) (t : Transition) :
    Agree (a.fired t) (b.fired t) :=
  { h with
    state := rfl
    heads := by
      show moveHeads a.heads t.move = moveHeads b.heads t.move
      rw [h.heads]
    steps := congrArg (· + 1) h.steps
    status := h.entryStatus t.next
    tapes := by
      show (writeCells a.tapes a.heads t.write).map Tape.peek =
        (writeCells b.tapes b.heads t.write).map Tape.peek
      rw [map_peek_writeCells ha.blank, map_peek_writeCells hb.blank, h.tapes, h.heads] }

/-- What two machines that agree report is the same. -/
theorem outcome (h : Agree a b) (read : Option (List Symbol)) (t : Option Transition) :
    a.outcome read t = b.outcome read t := by
  rw [Machine.outcome, h.status, h.steps, h.state, Machine.outcome]

/-- **Machines that agree make the same step, and agree after it.** -/
theorem takes (ha : a.Sound) (hb : b.Sound) (h : Agree a b) (hta : a.Takes o a') (htb : b.Takes o' b') :
    o = o' ∧ Agree a' b' := by
  have hrunning : a.status = .running ↔ b.status = .running := by rw [h.status]
  cases Takes.together hrunning h.transition? hta htb with
  | rest => exact ⟨h.outcome none none, h⟩
  | stick =>
    have hstuck := h.stuck ha hb
    exact ⟨by rw [hstuck.outcome, h.currentSymbols], hstuck⟩
  | fire t =>
    have hfired := h.fired ha hb t
    exact ⟨by rw [hfired.outcome, h.currentSymbols], hfired⟩

/-- Machines that agree do so after any number of steps. -/
theorem iterate (ha : a.Sound) (hb : b.Sound) (h : Agree a b) (n : Nat) :
    Agree (advance^[n] a) (advance^[n] b) :=
  ha.iterate_together (fun ha hb h hta htb => (h.takes ha hb hta htb).2) hb h n

end Agree

/-! ### Single symbols on the tapes -/

/-- Every cell of every tape holds a single character. -/
def SingleCells (m : Machine) : Prop := ∀ f ∈ m.tapes.map Tape.peek, ∀ p, (f p).length = 1

theorem single_update {f : Int → Symbol} (hf : ∀ p, (f p).length = 1) {s : Symbol} (hs : s.length = 1)
    (position p : Int) : (Function.update f position s p).length = 1 := by
  rw [Function.update_apply]
  split
  · exact hs
  · exact hf p

/-- **No step of a well-formed program writes anything but single characters.** -/
theorem SingleCells.takes (hm : a.Sound) (hp : a.program.WellFormed) (h : a.SingleCells)
    (ht : a.Takes o a') : a'.SingleCells := by
  cases ht with
  | rests => exact h
  | sticks =>
    intro f hf
    refine h f ?_
    rwa [← map_peek_reachCells hm.blank a.heads]
  | @fires t running fits =>
    obtain ⟨s, hs, he⟩ := Program.transition?_eq_some_iff.1 fits
    have hwrite := ((hp.states _ hs).2.fits _ he).write_single
    intro f hf
    have hf' : f ∈ (writeCells a.tapes a.heads t.write).map Tape.peek := hf
    rw [map_peek_writeCells hm.blank] at hf'
    obtain ⟨i, hi⟩ := List.mem_iff_getElem?.1 hf'
    obtain ⟨g, hw, hg, hhw, rfl⟩ := List.getElem?_zipWith_eq_some.1 hi
    have hsingle := hwrite hw.2 (List.of_mem_zip (List.mem_of_getElem? hhw)).2
    exact single_update (h g (List.mem_of_getElem? hg)) hsingle hw.1

theorem singleCells_start {p : Program} (hp : p.WellFormed) (mode : Mode) (config : TapeLang.Config) :
    (start p mode config).SingleCells := by
  intro f hf position
  obtain ⟨t, ht, rfl⟩ := List.mem_map.1 hf
  obtain ⟨row, hrow, rfl⟩ := List.mem_map.1 ht
  rw [Tape.peek_ofList, Tape.contents]
  split
  · exact hp.tapes_single row hrow _ (List.get_mem row _)
  · exact hp.blank_single

end Machine

/-- A machine for a well-formed program keeps its program and single characters in its cells. -/
theorem Program.WellFormed.singleCells_iterate {p : Program} (hp : p.WellFormed) (mode : Mode)
    (config : Config) (n : Nat) :
    (Machine.advance^[n] (Machine.start p mode config)).program = p ∧
      (Machine.advance^[n] (Machine.start p mode config)).SingleCells := by
  have hrun := (hp.sound_start mode config).advance_induction
    (P := fun _ m => m.program = p ∧ m.SingleCells) ⟨rfl, Machine.singleCells_start hp mode config⟩ ?_ n
  · exact hrun.2
  · rintro n m o m' hsound ⟨hprogram, hsingle⟩ htakes
    exact ⟨(hsound.takes htakes).2.trans hprogram, hsingle.takes hsound (hprogram ▸ hp) htakes⟩

/-- What the command `run` prints of the tapes. -/
def Machine.printedTapes (m : Machine) : List String :=
  m.snapshot.tapeTexts.map (CommandLine.printedTape m.program.blank)

/-- What the command `run` prints in the end are these texts, each on a line of its own. -/
theorem Machine.out_finish (m : Machine) (c : CommandLine.Console) :
    (CommandLine.finish c m).console.out = c.out ++ CommandLine.unlines m.printedTapes := by
  unfold CommandLine.finish
  dsimp only
  split <;> rfl

/-- What is printed is what the tapes hold between their outermost symbols. -/
theorem Program.WellFormed.isPrinted_iterate {p : Program} (hp : p.WellFormed) (mode : Mode)
    (config : Config) (n : Nat) :
    List.Forall₂ (Tape.IsPrinted p.blank)
      ((Machine.advance^[n] (Machine.start p mode config)).tapes.map Tape.peek)
      (Machine.advance^[n] (Machine.start p mode config)).printedTapes := by
  have hsound := hp.sound_start mode config
  obtain ⟨hprogram, hsingle⟩ := hp.singleCells_iterate mode config n
  have hblank := hsound.blank_iterate n
  have hsound' := hsound.iterate n
  generalize Machine.advance^[n] (Machine.start p mode config) = m at *
  have htexts : m.printedTapes =
      m.tapes.map fun t => CommandLine.printedTape p.blank (String.join t.symbols) := by
    simp [Machine.printedTapes, Machine.snapshot, Snapshot.tapeTexts, Function.comp_def, hprogram]
  rw [htexts, List.forall₂_map_left_iff, List.forall₂_map_right_iff, List.forall₂_same]
  intro t ht
  rw [← hblank t ht]
  exact Tape.isPrinted_printedTape (hsound'.blank t ht) (hsingle _ (List.mem_map_of_mem ht))

/-! ### Blanks behind the tapes -/

/-- The tapes of the program with blanks behind them, `pad i` of them behind tape `i`. -/
def Program.paddedTapes (p : Program) (pad : Nat → Nat) : List (List Symbol) :=
  p.tapes.mapIdx fun i row => row ++ List.replicate (pad i) p.blank

/-- A well-formed program takes its own tapes with blanks behind them. -/
theorem Program.WellFormed.withTapes_paddedTapes {p : Program} (hp : p.WellFormed) (pad : Nat → Nat) :
    p.withTapes (p.paddedTapes pad) = .ok { p with tapes := p.paddedTapes pad } := by
  have hlength : ((p.paddedTapes pad).length : Int) = p.arity := by
    rw [paddedTapes, List.length_mapIdx, hp.tapes_length]
  have hsingle : ∀ s ∈ (p.paddedTapes pad).flatten, s.length = 1 := by
    intro s hs
    obtain ⟨row, hrow, hs⟩ := List.mem_flatten.1 hs
    obtain ⟨i, hi, rfl⟩ := List.mem_mapIdx.1 hrow
    rcases List.mem_append.1 hs with hs | hs
    · exact hp.tapes_single _ (List.getElem_mem hi) s hs
    · rw [List.eq_of_mem_replicate hs]
      exact hp.blank_single
  have hnone : (p.paddedTapes pad).flatten.find? (fun s => s.length ≠ 1) = none :=
    List.find?_eq_none.2 fun s hs => by simp [hsingle s hs]
  rw [Program.withTapes, if_neg (not_not.2 hlength), hnone]

/-- Blanks behind a row change no cell. -/
theorem Tape.contents_append_replicate (blank : Symbol) (row : List Symbol) (n : Nat) :
    Tape.contents blank (row ++ List.replicate n blank) = Tape.contents blank row := by
  rw [← peek_ofList, ← peek_ofList]
  funext position
  cases position with
  | ofNat k =>
    simp only [peek, cell?, ofList, List.getElem?_toArray, List.getElem?_append]
    split
    · rfl
    · next hk =>
      rw [List.getElem?_eq_none (Nat.le_of_not_lt hk), List.getElem?_replicate]
      split <;> rfl
  | negSucc k => rfl

/-- The machines for the two programs agree at the beginning. -/
theorem Machine.agree_start (p : Program) (pad : Nat → Nat) (mode : Mode) (config : Config) :
    Agree (start p mode config) (start { p with tapes := p.paddedTapes pad } mode config) where
  states := rfl
  mode := rfl
  state := rfl
  heads := rfl
  steps := rfl
  status := rfl
  tapes := by
    apply List.ext_getElem?
    intro i
    cases hrow : p.tapes[i]? with
    | none => simp [start, Program.paddedTapes, hrow]
    | some row =>
      simp [start, Program.paddedTapes, hrow, Tape.peek_ofList, Tape.contents_append_replicate]

/-- The end of a run depends on the machine only through what is printed of it. -/
theorem Machine.Agree.finish_eq {a b : Machine} (h : Agree a b) (hprinted : a.printedTapes = b.printedTapes)
    (c : CommandLine.Console) : CommandLine.finish c a = CommandLine.finish c b := by
  have hsteps : a.snapshot.steps = b.snapshot.steps := h.steps
  have hstate : a.snapshot.state = b.snapshot.state := h.state
  have hstatus : a.snapshot.status = b.snapshot.status := h.status
  unfold printedTapes at hprinted
  simp only [CommandLine.finish, hprinted, hsteps, hstate, hstatus]

/-- **Stored blanks do not matter.** Take a program that has been read and built from a text, on its own
tapes or on others, and the same program with any numbers of blanks behind its tapes. After any number of
steps their machines have the same state, heads, status and counter, and report the same about the next
step. What is printed of each tape is the same too, namely the cells from the leftmost to the rightmost that
is not blank. The command `run` prints just these texts in the end, each on a line of its own, and everything
else that it has to say then is the same. -/
theorem stored_blanks_do_not_matter (text : List Char) (file : String) (tree : Ast.Program)
    (p q : Program) (hparse : parse text file = .ok tree) (hbuild : build tree = .ok p)
    (hq : q = p ∨ ∃ rows, p.withTapes rows = .ok q) (pad : Nat → Nat) (mode : Mode) (config : Config)
    (n : Nat) :
    ∃ q', q.withTapes (q.paddedTapes pad) = .ok q' ∧
      let m := Machine.advance^[n] (Machine.start q mode config)
      let m' := Machine.advance^[n] (Machine.start q' mode config)
      m'.state = m.state ∧ m'.heads = m.heads ∧ m'.status = m.status ∧ m'.steps = m.steps ∧
        (∃ o, m.step.1 = .ok o ∧ m'.step.1 = .ok o) ∧
        List.Forall₂ (fun t s => Tape.IsPrinted q.blank t.peek s) m.tapes m.printedTapes ∧
        m'.printedTapes = m.printedTapes ∧
        (∀ c, (CommandLine.finish c m).console.out = c.out ++ CommandLine.unlines m.printedTapes) ∧
        ∀ c, CommandLine.finish c m' = CommandLine.finish c m := by
  have hwell := wellFormed_of_input hparse hbuild hq
  have hpadded := hwell.withTapes_paddedTapes pad
  have hwell' := hwell.withTapes hpadded
  have hsound := hwell.sound_start mode config
  have hsound' := hwell'.sound_start mode config
  refine ⟨_, hpadded, ?_⟩
  intro m m'
  have hagree : Machine.Agree m m' := (Machine.agree_start q pad mode config).iterate hsound hsound' n
  obtain ⟨o, hstep, htakes⟩ := (hsound.iterate n).step_eq
  obtain ⟨o', hstep', htakes'⟩ := (hsound'.iterate n).step_eq
  obtain ⟨rfl, -⟩ := hagree.takes (hsound.iterate n) (hsound'.iterate n) htakes htakes'
  have hprinted : List.Forall₂ (Tape.IsPrinted q.blank) (m.tapes.map Tape.peek) m.printedTapes :=
    hwell.isPrinted_iterate mode config n
  have hprinted' : List.Forall₂ (Tape.IsPrinted q.blank) (m.tapes.map Tape.peek) m'.printedTapes := by
    rw [hagree.tapes]
    exact hwell'.isPrinted_iterate mode config n
  have heq : m'.printedTapes = m.printedTapes :=
    List.right_unique_forall₂' (Tape.rightUnique_isPrinted q.blank) hprinted' hprinted
  exact ⟨hagree.state.symm, hagree.heads.symm, hagree.status.symm, hagree.steps.symm,
    ⟨o, congrArg Prod.fst hstep, congrArg Prod.fst hstep'⟩, List.forall₂_map_left_iff.1 hprinted, heq,
    m.out_finish, fun c => (hagree.finish_eq heq.symm c).symm⟩

/-- A text with a blank between the symbols of its tape; the head writes a symbol in front of them and a
blank over the last one. -/
def blanksAround : List Char :=
  ("tape: a, '.', b, c\nblank: '.'\nrules:\n  left:\n    a, L, left\n    _ -> x, R, right\n" ++
    "  right:\n    a, R, right\n    _, R, right\n    b, R, right\n    c -> _, R, right\n").toList

/-- Two more blanks are stored behind the tape all along, and the command prints one line without blanks at its
ends. -/
theorem stored_blanks_do_not_matter_blanks_around :
    ∃ tree p p', parse blanksAround "m" = .ok tree ∧ build tree = .ok p ∧
      p.withTapes (p.paddedTapes fun _ => 2) = .ok p' ∧
      (Machine.advance^[6] (Machine.start p .strict {})).snapshot.tapeTexts = ["xa.b."] ∧
      (Machine.advance^[6] (Machine.start p' .strict {})).heads = [4] ∧
      (Machine.advance^[6] (Machine.start p' .strict {})).printedTapes = ["xa.b"] ∧
      (CommandLine.finish {} (Machine.advance^[6] (Machine.start p' .strict {}))).console.out = "xa.b\n" := by
  have heval : ((parse blanksAround "m").toOption.bind fun tree => (build tree).toOption.map fun p =>
      let m := Machine.advance^[6] (Machine.start p .strict {})
      (m.snapshot.tapeTexts, m.heads, m.printedTapes)) = some (["xa.b."], [4], ["xa.b"]) := by
    decide +kernel
  simp only [Option.bind_eq_some_iff, Option.map_eq_some_iff, toOption_eq_some_iff, Prod.mk.injEq]
    at heval
  obtain ⟨tree, hparse, p, hbuild, htexts, hheads, hprinted⟩ := heval
  obtain ⟨p', hpadded, -, hheads', -, -, -, -, hprinted', hout, hfinish⟩ :=
    stored_blanks_do_not_matter blanksAround "m" tree p p hparse hbuild (.inl rfl) (fun _ => 2) .strict {} 6
  refine ⟨tree, p, p', hparse, hbuild, hpadded, htexts, hheads'.trans hheads, hprinted'.trans hprinted, ?_⟩
  rw [hfinish, hout, hprinted]
  rfl

end TapeLang
