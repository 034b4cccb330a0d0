import Mathlib
import TapeLang.Proofs.Calls

/-!
# Normal and strict machines run in lockstep

The mode of a machine decides how a machine that finds no transition stops, and nothing else.

* `Machine.Alike`: two machines that differ in their modes and in how they stopped;
* `Machine.Alike.takes`: they make the same steps;
* `modes_run_in_lockstep`: a normal and a strict machine for one program.
-/

namespace TapeLang

namespace Machine

/-- The same machine, except for the mode and for the way in which it stopped. -/
structure Alike (a b : Machine) : Prop where
  program : a.program = b.program
  state : a.state = b.state
  heads : a.heads = b.heads
  tapes : a.tapes = b.tapes
  steps : a.steps = b.steps
  running : a.status = .running ↔ b.status = .running

variable {a a' b b' : Machine} {o o' : Outcome}

namespace Alike

theorem currentSymbols (h : Alike a b) : a.currentSymbols = b.currentSymbols := by
  rw [Machine.currentSymbols, h.tapes, h.heads, Machine.currentSymbols]

theorem isRunning (h : Alike a b) : a.isRunning = b.isRunning := by
  rw [Bool.eq_iff_iff, isRunning_iff, isRunning_iff]
  exact h.running

theorem transition? (h : Alike a b) :
    a.program.transition? a.state a.currentSymbols = b.program.transition? b.state b.currentSymbols := by
  rw [h.program, h.state, h.currentSymbols]

theorem currentTransition (h : Alike a b) : a.currentTransition = b.currentTransition := by
  rw [Machine.currentTransition, h.isRunning, h.transition?, Machine.currentTransition]

/-- Machines that are alike read the same symbols and fire the same transition. -/
theorem report_eq (h : Alike a b) (ha : a.Takes o a') (hb : b.Takes o' b') :
    o.read = o'.read ∧ o.transition = o'.transition := by
  rw [ha.read_eq, hb.read_eq, ha.transition_eq, hb.transition_eq, h.isRunning, h.currentSymbols,
    h.currentTransition]
  exact ⟨rfl, rfl⟩

theorem lacksTransition (h : Alike a b) : a.LacksTransition ↔ b.LacksTransition := by
  rw [LacksTransition, h.program, h.state, h.currentSymbols, LacksTransition]

theorem stuck (h : Alike a b) : Alike a.stuck b.stuck where
  program := h.program
  state := h.state
  heads := h.heads
  tapes := by
    show reachCells a.tapes a.heads = reachCells b.tapes b.heads
    rw [h.tapes, h.heads]
  steps := h.steps
  running := iff_of_false (status_stuck_ne_running a) (status_stuck_ne_running b)

theorem fired (h : Alike a b) (t : Transition) : Alike (a.fired t) (b.fired t) where
  program := h.program
  state := rfl
  heads := by
    show moveHeads a.heads t.move = moveHeads b.heads t.move
    rw [h.heads]
  tapes := by
    show writeCells a.tapes a.heads t.write = writeCells b.tapes b.heads t.write
    rw [h.tapes, h.heads]
  steps := congrArg (· + 1) h.steps
  running := by
    show entryStatus a.program t.next = .running ↔ entryStatus b.program t.next = .running
    rw [h.program]

/-- **Machines that are alike stay alike.** -/
theorem takes (h : Alike a b) (ha : a.Takes o a') (hb : b.Takes o' b') : Alike a' b' := by
  cases Takes.together h.running h.transition? ha hb with
  | rest => exact h
  | stick => exact h.stuck
  | fire t => exact h.fired t

/-- Machines that are alike stay alike for any number of steps. -/
theorem iterate (ha : a.Sound) (hb : b.Sound) (h : Alike a b) (n : Nat) :
    Alike (advance^[n] a) (advance^[n] b) :=
  ha.iterate_together (fun _ _ h htakes htakes' => h.takes htakes htakes') hb h n

/-- **How the two machines stopped.** A strict machine stops with an error where a normal one halts because
no transition fits; apart from this they have the same status. -/
theorem status_eq_or (h : Alike a b) (ha : a.Truthful) (hb : b.Truthful) (hnormal : a.mode = .normal)
    (hstrict : b.mode = .strict) :
    (a.status ≠ b.status ↔ a.status = .halted ∧ ∃ cause, b.status = .errored cause) ∧
      (a.status ≠ b.status ↔ a.status ≠ .running ∧ a.LacksTransition) := by
  cases hstatus : a.status with
  | running => simp [h.running.1 hstatus]
  | halted =>
    cases hstatus' : b.status with
    | running =>
      rw [h.running.2 hstatus'] at hstatus
      cases hstatus
    | halted =>
      have hfits : ¬a.LacksTransition := by
        intro hlacks
        obtain ⟨s, hs, hhalting, -⟩ := h.lacksTransition.1 hlacks
        rcases hb.halted hstatus' with hfinal | ⟨hmode, -⟩
        · rw [hfinal s hs] at hhalting
          cases hhalting
        · rw [hstrict] at hmode
          cases hmode
      simp [hfits]
    | errored cause =>
      obtain ⟨-, -, -, hlacks⟩ := hb.errored cause (by rw [hstatus']; rfl)
      simp [h.lacksTransition.2 hlacks]
  | errored cause =>
    obtain ⟨hmode, -⟩ := ha.errored cause (by rw [hstatus]; rfl)
    rw [hnormal] at hmode
    cases hmode

end Alike

end Machine

/-- **Normal and strict machines run in lockstep.** Take a program that has been read and built from a text,
on its own tapes or on others. After any number of steps its normal and its strict machine have the same
state, heads, stored cells and counter, and their next steps read the same symbols and fire the same
transition. Their statuses differ only in that the strict machine stops with an error where the normal one
halts, and this happens where they stop in a state with transitions none of which fits. -/
theorem modes_run_in_lockstep (text : List Char) (file : String) (tree : Ast.Program) (p q : Program)
    (hparse : parse text file = .ok tree) (hbuild : build tree = .ok p)
    (hq : q = p ∨ ∃ rows, p.withTapes rows = .ok q) (config : Config) (n : Nat) :
    let normal := Machine.advance^[n] (Machine.start q .normal config)
    let strict := Machine.advance^[n] (Machine.start q .strict config)
    Machine.Alike normal strict ∧
      (∃ o o', normal.step.1 = .ok o ∧ strict.step.1 = .ok o' ∧ o.read = o'.read ∧
        o.transition = o'.transition) ∧
      (normal.status ≠ strict.status ↔ normal.status = .halted ∧ ∃ cause, strict.status = .errored cause) ∧
      (normal.status ≠ strict.status ↔ normal.status ≠ .running ∧ normal.LacksTransition) := by
  intro normal strict
  have hwell := wellFormed_of_input hparse hbuild hq
  have hnormal := (Machine.accounted_start (hwell.sound_start .normal config)).iterate n
  have hstrict := (Machine.accounted_start (hwell.sound_start .strict config)).iterate n
  have hstart : Machine.Alike (Machine.start q .normal config) (Machine.start q .strict config) :=
    ⟨rfl, rfl, rfl, rfl, rfl, Iff.rfl⟩
  have halike : Machine.Alike normal strict :=
    hstart.iterate (hwell.sound_start .normal config) (hwell.sound_start .strict config) n
  obtain ⟨o, hstep, htakes⟩ := hnormal.sound.step_eq
  obtain ⟨o', hstep', htakes'⟩ := hstrict.sound.step_eq
  have hreport := halike.report_eq htakes htakes'
  refine ⟨halike, ⟨o, o', congrArg Prod.fst hstep, congrArg Prod.fst hstep', hreport.1, hreport.2⟩, ?_⟩
  exact halike.status_eq_or hnormal.truthful hstrict.truthful hnormal.mode hstrict.mode

/-- After three steps the normal machine has halted and the strict one has stopped with an error. -/
theorem modes_run_in_lockstep_overwrite :
    ∃ tree p q, parse overwriteText "m" = .ok tree ∧ build tree = .ok p ∧
      p.withTapes [["a", "a", "b"]] = .ok q ∧
      (Machine.advance^[3] (Machine.start q .normal {})).status = .halted ∧
      (Machine.advance^[3] (Machine.start q .strict {})).status = .errored ⟨"q", ["b"]⟩ ∧
      Machine.Alike (Machine.advance^[3] (Machine.start q .normal {}))
        (Machine.advance^[3] (Machine.start q .strict {})) ∧
      (Machine.advance^[3] (Machine.start q .normal {})).LacksTransition := by
  have heval : ((parse overwriteText "m").toOption.bind fun tree => (build tree).toOption.bind fun p =>
      (p.withTapes [["a", "a", "b"]]).toOption.map fun q =>
        ((Machine.advance^[3] (Machine.start q .normal {})).status,
          (Machine.advance^[3] (Machine.start q .strict {})).status)) =
      some (.halted, .errored ⟨"q", ["b"]⟩) := by
    decide +kernel
  simp only [Option.bind_eq_some_iff, Option.map_eq_some_iff, toOption_eq_some_iff, Prod.mk.injEq]
    at heval
  obtain ⟨tree, hparse, p, hbuild, q, hrows, hnormal, hstrict⟩ := heval
  obtain ⟨halike, -, -, hlacks⟩ := modes_run_in_lockstep overwriteText "m" tree p q hparse hbuild
    (.inr ⟨_, hrows⟩) {} 3
  refine ⟨tree, p, q, hparse, hbuild, hrows, hnormal, hstrict, halike, (hlacks.1 ?_).2⟩
  rw [hnormal, hstrict]
  decide

end TapeLang
