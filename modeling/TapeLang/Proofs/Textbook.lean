import Mathlib
import TapeLang.Proofs.FrontEnd
import TapeLang.Proofs.Step

/-!
# The machine and the textbook machine

The textbook machine has `k` tapes that are functions from all integers to symbols, and `k` heads that are
integers. It fires the transition of its state that stands under the symbols under its heads: it writes,
then moves. It stops where no transition stands, and on coming into a state without transitions.

* `Textbook.Configuration`, `Textbook.initial`, `Textbook.Step`: the textbook machine;
* `Textbook.Step.unique`: it is deterministic;
* `Textbook.Matches`: a machine shows a configuration;
* `machine_refines_textbook`: it does so after any number of steps.
-/

namespace TapeLang

namespace Textbook

variable {k : Nat}

/-- A configuration of the textbook machine with `k` tapes. -/
structure Configuration (k : Nat) where
  state : String
  heads : Fin k → Int
  tapes : Fin k → Int → Symbol
  /-- The number of transitions fired. -/
  fired : Nat
  stopped : Prop

/-- The symbols under the heads. -/
def Configuration.read (c : Configuration k) : Fin k → Symbol := fun i => c.tapes i (c.heads i)

section Program

variable (p : Program)

/-- In the state `q` the transition `t` stands under the symbols `v`. -/
def Keyed (q : String) (v : Fin k → Symbol) (t : Transition) : Prop :=
  ∃ s, (q, s) ∈ p.states.entries ∧ (List.ofFn v, t) ∈ s.transitions.entries

/-- The state is not declared, or it has no transition. -/
def Final (q : String) : Prop := ∀ s, (q, s) ∈ p.states.entries → s.transitions.entries = []

/-- Each tape holds its row from position zero on, and the blank symbol elsewhere. -/
def initial : Configuration p.tapes.length where
  state := p.start
  heads i := p.heads.getD i 0
  tapes i := Tape.contents p.blank (p.tapes.get i)
  fired := 0
  stopped := Final p p.start

/-- One step of the textbook machine. -/
inductive Step : Configuration k → Configuration k → Prop
  | fire {c : Configuration k} {t : Transition} {write : Fin k → Symbol} {move : Fin k → Direction}
      (running : ¬c.stopped) (keyed : Keyed p c.state c.read t)
      (writes : t.write = List.ofFn write) (moves : t.move = List.ofFn move) :
      Step c
        { state := t.next
          heads := fun i => c.heads i + (move i).delta
          tapes := fun i => Function.update (c.tapes i) (c.heads i) (write i)
          fired := c.fired + 1
          stopped := Final p t.next }
  | stick {c : Configuration k} (running : ¬c.stopped) (unkeyed : ∀ t, ¬Keyed p c.state c.read t) :
      Step c { c with stopped := True }
  | rest {c : Configuration k} (stopped : c.stopped) : Step c c

/-- The configurations that the textbook machine reaches from `c` in `n` steps. -/
inductive Reaches (c : Configuration k) : Nat → Configuration k → Prop
  | zero : Reaches c 0 c
  | succ {n : Nat} {c₁ c₂ : Configuration k} (reaches : Reaches c n c₁) (step : Step p c₁ c₂) :
      Reaches c (n + 1) c₂

end Program

/-! ### Determinism -/

variable {p : Program} {c c₁ c₂ : Configuration k}

theorem Keyed.unique {q : String} {v : Fin k → Symbol} {t₁ t₂ : Transition} (h₁ : Keyed p q v t₁)
    (h₂ : Keyed p q v t₂) : t₁ = t₂ :=
  Option.some.inj
    ((Program.transition?_eq_some_iff.2 h₁).symm.trans (Program.transition?_eq_some_iff.2 h₂))

theorem Step.unique (h₁ : Step p c c₁) (h₂ : Step p c c₂) : c₁ = c₂ := by
  cases h₁ with
  | @fire t₁ write₁ move₁ running₁ keyed₁ writes₁ moves₁ =>
    cases h₂ with
    | @fire t₂ write₂ move₂ running₂ keyed₂ writes₂ moves₂ =>
      obtain rfl := keyed₁.unique keyed₂
      obtain rfl := List.ofFn_injective (writes₁.symm.trans writes₂)
      obtain rfl := List.ofFn_injective (moves₁.symm.trans moves₂)
      rfl
    | stick running₂ unkeyed => exact absurd keyed₁ (unkeyed t₁)
    | rest stopped => exact absurd stopped running₁
  | stick running₁ unkeyed =>
    cases h₂ with
    | fire running₂ keyed => exact absurd keyed (unkeyed _)
    | stick => rfl
    | rest stopped => exact absurd stopped running₁
  | rest stopped =>
    cases h₂ with
    | fire running => exact absurd stopped running
    | stick running => exact absurd stopped running
    | rest => rfl

theorem Reaches.unique {n : Nat} (h₁ : Reaches p c n c₁) (h₂ : Reaches p c n c₂) : c₁ = c₂ := by
  induction h₁ generalizing c₂ with
  | zero =>
    cases h₂
    rfl
  | succ _ step₁ ih =>
    cases h₂ with
    | succ reaches₂ step₂ =>
      obtain rfl := ih reaches₂
      exact step₁.unique step₂

/-! ### Simulation -/

/-- The machine shows the configuration: the same state and heads, as many steps as transitions fired,
the same symbol at every position of every tape, and it runs unless the textbook machine has stopped. -/
structure Matches (m : Machine) (c : Configuration k) : Prop where
  state : m.state = c.state
  heads : m.heads = List.ofFn c.heads
  steps : m.steps = c.fired
  tapes : m.tapes.map Tape.peek = List.ofFn c.tapes
  status : m.status = .running ↔ ¬c.stopped

theorem exists_ofFn {α : Type} {l : List α} (h : l.length = k) : ∃ f : Fin k → α, l = List.ofFn f := by
  subst h
  exact ⟨l.get, (List.ofFn_get l).symm⟩

theorem zipWith_ofFn {α β γ : Type} (f : α → β → γ) (a : Fin k → α) (b : Fin k → β) :
    List.zipWith f (List.ofFn a) (List.ofFn b) = List.ofFn fun i => f (a i) (b i) := by
  apply List.ext_getElem
  · simp
  · simp

/-- A machine runs in the states that are not final. -/
theorem entryStatus_eq_running_iff {q : String} :
    Machine.entryStatus p q = .running ↔ ¬Final p q := by
  have hfinal : ¬Final p q ↔ p.haltsIn q = false := by
    rw [Program.haltsIn_eq_false_iff]
    simp [Final]
  rw [hfinal, Machine.entryStatus]
  cases p.haltsIn q <;> simp

variable {m m' : Machine} {o : Outcome}

theorem Matches.length_tapes (h : Matches m c) : m.tapes.length = k := by
  simpa using congrArg List.length h.tapes

theorem Matches.currentSymbols (h : Matches m c) : m.currentSymbols = List.ofFn c.read := by
  have hpeek : List.zipWith Tape.peek m.tapes m.heads =
      List.zipWith (fun f x => f x) (m.tapes.map Tape.peek) m.heads := by
    rw [List.zipWith_map_left]
  rw [Machine.currentSymbols, hpeek, h.tapes, h.heads, zipWith_ofFn]
  rfl

/-- **Each step of the machine is the step of the textbook machine.** -/
theorem Matches.takes (hm : m.Sound) (hc : Matches m c) (h : m.Takes o m') :
    ∃ c', Step m.program c c' ∧ Matches m' c' := by
  cases h with
  | rests stopped => exact ⟨c, .rest (not_not.1 fun h => stopped (hc.status.2 h)), hc⟩
  | sticks running fits =>
    refine ⟨{ c with stopped := True }, .stick (hc.status.1 running) ?_, ?_⟩
    · intro t ht
      have hsome := Program.transition?_eq_some_iff.2 ht
      rw [← hc.state, ← hc.currentSymbols, fits] at hsome
      cases hsome
    · refine { hc with tapes := ?_, status := ?_ }
      · exact (Machine.map_peek_reachCells hm.blank m.heads).trans hc.tapes
      · have hstopped : m.stuck.status ≠ .running := by
          unfold Machine.stuck Machine.stuckStatus
          cases m.mode <;> simp
        simpa using hstopped
  | @fires t running fits =>
    obtain ⟨hwrite, hmove⟩ := hm.sized_of_transition? fits
    -- vectors of the right length are functions on the tapes
    obtain ⟨write, hwrite⟩ := exists_ofFn (hwrite.trans hc.length_tapes)
    obtain ⟨move, hmove⟩ := exists_ofFn (hmove.trans hc.length_tapes)
    rw [hc.state, hc.currentSymbols] at fits
    refine ⟨_, .fire (hc.status.1 running) (Program.transition?_eq_some_iff.1 fits) hwrite hmove, ?_⟩
    exact
      { state := rfl
        heads := by rw [Machine.fired, Machine.moveHeads, hc.heads, hmove, zipWith_ofFn]
        steps := congrArg (· + 1) hc.steps
        tapes := by
          rw [Machine.fired, Machine.map_peek_writeCells hm.blank, hc.tapes, hc.heads, hwrite,
            List.zip, zipWith_ofFn, zipWith_ofFn]
        status := entryStatus_eq_running_iff }

theorem matches_start (p : Program) (hheads : p.heads.length = p.tapes.length) (mode : Mode)
    (config : Config) : Matches (Machine.start p mode config) (initial p) where
  state := rfl
  heads := by
    apply List.ext_getElem
    · simpa [Machine.start] using hheads
    · intro i hi _
      simp only [Machine.start] at hi
      simp [Machine.start, initial, hi]
  steps := rfl
  tapes := by
    apply List.ext_getElem
    · simp [Machine.start]
    · intro i hi _
      simp [Machine.start, initial, Tape.peek_ofList]
  status := entryStatus_eq_running_iff

/-- **A sound machine shows what the textbook machine reaches,** and none of its steps breaks down. -/
theorem Matches.iterate (hm : m.Sound) (hc : Matches m c) (n : Nat) :
    (∃ o, (Machine.advance^[n] m).step.1 = .ok o) ∧
      ∃ c', Reaches m.program c n c' ∧ Matches (Machine.advance^[n] m) c' := by
  -- the program is carried along, since the textbook machine runs one program
  have hrun := hm.advance_induction
    (P := fun n m' => m'.program = m.program ∧ ∃ c', Reaches m.program c n c' ∧ Matches m' c')
    ⟨rfl, c, .zero, hc⟩
    (by
      rintro n m₁ o m₂ hsound ⟨hprogram, c₁, hreaches, hmatches⟩ htakes
      obtain ⟨c₂, hstep, hmatches₂⟩ := hmatches.takes hsound htakes
      refine ⟨(hsound.takes htakes).2.trans hprogram, c₂, .succ hreaches ?_, hmatches₂⟩
      exact hprogram ▸ hstep)
    n
  exact ⟨hrun.1, hrun.2.2⟩

end Textbook

/-! ### Programs that come from a text -/

/-- A well-formed program has the counts that a machine relies on. -/
theorem Program.WellFormed.counts {p : Program} (h : p.WellFormed) :
    p.heads.length = p.tapes.length ∧ p.Sized p.tapes.length := by
  have harity : p.arity.toNat = p.tapes.length := by
    rw [← h.tapes_length, Int.toNat_natCast]
  refine ⟨Int.natCast_inj.1 (h.heads_length.trans h.tapes_length.symm), ?_⟩
  intro e he e' he'
  have hfits := (h.states e he).2.fits e' he'
  exact ⟨hfits.write_length.trans harity, hfits.move_length.trans harity⟩

theorem Program.WellFormed.sound_start {p : Program} (h : p.WellFormed) (mode : Mode)
    (config : Config) : (Machine.start p mode config).Sound :=
  Machine.sound_start h.blank_single h.counts.1 h.counts.2 mode config

/-- A program that has been built from a text is well formed. -/
theorem wellFormed_of_build {text : List Char} {file : String} {tree : Ast.Program} {p : Program}
    (hparse : parse text file = .ok tree) (hbuild : build tree = .ok p) : p.WellFormed := by
  rcases build_of_isRead (isRead_of_parse hparse) with ⟨q, hq, hwell, -⟩ | ⟨e, he, -⟩
  · rw [hbuild] at hq
    cases hq
    exact hwell
  · rw [hbuild] at he
    cases he

/-- **A machine is the textbook machine of its program.** For a program that has been read and built from
a text, on its own tapes or on others, no step breaks down, and after `n` steps the machine shows the one
configuration that the textbook machine reaches in `n` steps. -/
theorem machine_refines_textbook (text : List Char) (file : String) (tree : Ast.Program)
    (p q : Program) (hparse : parse text file = .ok tree) (hbuild : build tree = .ok p)
    (hq : q = p ∨ ∃ rows, p.withTapes rows = .ok q) (mode : Mode) (config : Config) (n : Nat) :
    (q.tapes.length : Int) = q.arity ∧
      (∀ i, i < n → ∃ o, (Machine.advance^[i] (Machine.start q mode config)).step.1 = .ok o) ∧
      ∃ c : Textbook.Configuration q.tapes.length,
        (∀ c', Textbook.Reaches q (Textbook.initial q) n c' ↔ c' = c) ∧
        Textbook.Matches (Machine.advance^[n] (Machine.start q mode config)) c := by
  have hp := wellFormed_of_build hparse hbuild
  have hwell : q.WellFormed := by
    rcases hq with rfl | ⟨rows, hrows⟩
    · exact hp
    · exact hp.withTapes hrows
  have hsound := hwell.sound_start mode config
  have hstart := Textbook.matches_start q hwell.counts.1 mode config
  refine ⟨hwell.tapes_length, fun i _ => (hstart.iterate hsound i).1, ?_⟩
  obtain ⟨c, hreaches, hmatches⟩ := (hstart.iterate hsound n).2
  refine ⟨c, fun c' => ⟨fun h => h.unique hreaches, ?_⟩, hmatches⟩
  rintro rfl
  exact hreaches

/-- A text whose machine walks to the left of position zero and comes to a state that is not declared. -/
def leftWalk : List Char :=
  "tape: a\nblank: '.'\nrules:\n  q:\n    a -> '#', L, q\n    '.' -> b, R, r\n".toList

/-- Three steps of a strict machine, on a tape of its own. -/
theorem machine_refines_textbook_left_walk :
    ∃ tree p q, parse leftWalk "m" = .ok tree ∧ build tree = .ok p ∧
      p.withTapes [["a", "b"]] = .ok q ∧
      ∃ c, Textbook.Reaches q (Textbook.initial q) 3 c ∧
        Textbook.Matches (Machine.advance^[3] (Machine.start q .strict {})) c := by
  have heval : ((parse leftWalk "m").toOption.bind fun tree => (build tree).toOption.bind fun p =>
      (p.withTapes [["a", "b"]]).toOption).isSome := by rfl
  obtain ⟨q, hq⟩ := Option.isSome_iff_exists.1 heval
  simp only [Option.bind_eq_some_iff, toOption_eq_some_iff] at hq
  obtain ⟨tree, hparse, p, hbuild, hrows⟩ := hq
  obtain ⟨-, -, c, hreaches, hmatches⟩ :=
    machine_refines_textbook leftWalk "m" tree p q hparse hbuild (.inr ⟨_, hrows⟩) .strict {} 3
  exact ⟨tree, p, q, hparse, hbuild, hrows, c, (hreaches c).2 rfl, hmatches⟩

end TapeLang
