import Mathlib
import TapeLang.Proofs.CleanRun
import TapeLang.Proofs.Runs
import TapeLang.Proofs.Textbook

/-!
# What can be asked of a machine

A machine is stepped, run, traced, looked at and reset, in any order. Apart from a reset, whatever it is
asked for, it makes some steps in a row; so what every step keeps is true of every machine that can be
come by.

* `Call`, `Answer`, `Machine.perform`: the calls, and what becomes of a machine;
* `Machine.Reached`: the machines that calls and resets lead to, with the transitions fired on the way;
* `Machine.Truthful`: the status of a machine says why it is running or has stopped;
* `status_tells_the_truth`: it does so in every machine that is reached;
* `peeking_predicts_stepping`: looking at a machine tells what its next step will do.
-/

namespace TapeLang

/-- What can be looked up in a machine. -/
inductive Inspection where
  | symbols
  | transition
  | reads
  | snapshot
  deriving DecidableEq, Repr

/-- What can be asked of a machine. -/
inductive Call where
  | step
  /-- A run with a cap, if it has one of its own, for a caller who is asked before every step and whose
  patience is limited. -/
  | run (cap : Option Int) (stop : Nat → Bool) (patience : Nat)
  /-- The next snapshots of a trace that has made `taken` steps. -/
  | trace (cap : Option Int) (taken requests : Nat)
  | inspect (what : Inspection)

/-- What a machine answers. -/
inductive Answer where
  | outcome (o : Outcome)
  | snapshots (shots : List Snapshot)
  | symbols (read : List Symbol)
  | transition (t : Option Transition)
  | reads (reads : List (List Symbol))
  | snapshot (shot : Snapshot)
  deriving DecidableEq, Repr

namespace Program

variable {p : Program} {name : String}

theorem haltsIn_iff :
    p.haltsIn name = true ↔ ∀ s, p.state? name = some s → s.isHalting = true := by
  unfold haltsIn
  cases p.state? name <;> simp

theorem not_haltsIn_iff :
    ¬p.haltsIn name = true ↔ ∃ s, p.state? name = some s ∧ s.isHalting = false := by
  rw [haltsIn_iff]
  simp

end Program

namespace Machine

/-- What a look at the machine shows, and the machine after it. -/
def inspect (m : Machine) : Inspection → Answer × Machine
  | .symbols => (.symbols m.currentSymbols, m)
  | .transition => (.transition m.currentTransition, m)
  | .reads => (.reads m.availableReads, m)
  | .snapshot => (.snapshot m.snapshot, m)

/-- What the machine answers to a call, and the machine after it. -/
def perform (m : Machine) : Call → Except Breakdown Answer × Machine
  | .step => (m.step.1.map .outcome, m.step.2)
  | .run cap stop patience =>
    let r := m.runUntil cap stop patience
    (r.result.map .outcome, r.machine)
  | .trace cap taken requests =>
    let r := traceFrom cap requests taken m [] []
    (r.result.map .snapshots, r.machine)
  | .inspect what => (.ok (m.inspect what).1, (m.inspect what).2)

/-- How many steps the machine makes on a call. -/
def stepsOf (m : Machine) : Call → Nat
  | .step => 1
  | .run cap stop patience => m.stepsMade (runPauses (cap.or m.config.maxSteps) stop) 0 patience
  | .trace cap taken requests => m.stepsMade (capReached cap) taken requests
  | .inspect _ => 0

/-- The transitions that `k` steps in a row fire. -/
def firings (m : Machine) (k : Nat) : List Transition :=
  (List.range k).filterMap fun i => (advance^[i] m).step.1.toOption.bind Outcome.transition

/-- The machines that calls and resets lead to, with the transitions fired since the machine was set up or
last reset. A run in the middle of which the caller does something to the machine counts as several calls. -/
inductive Reached (p : Program) (mode : Mode) (config : Config) : List Transition → Machine → Prop
  | start : Reached p mode config [] (Machine.start p mode config)
  | call {fired : List Transition} {m : Machine} (reached : Reached p mode config fired m) (c : Call) :
      Reached p mode config (fired ++ m.firings (m.stepsOf c)) (m.perform c).2
  | reset {fired : List Transition} {m : Machine} (reached : Reached p mode config fired m) :
      Reached p mode config [] m.reset

variable {m m' : Machine} {o : Outcome} {p : Program} {mode : Mode} {config : TapeLang.Config}
  {fired : List Transition}

/-! ### Calls are steps -/

/-- **Every call makes steps and nothing else,** and does not break down. -/
theorem Sound.perform (hm : m.Sound) (c : Call) :
    (∃ a, (m.perform c).1 = .ok a) ∧ (m.perform c).2 = Machine.advance^[m.stepsOf c] m := by
  cases c with
  | step =>
    obtain ⟨o, hstep, -⟩ := hm.step_eq
    exact ⟨⟨.outcome o, by rw [Machine.perform, hstep]; rfl⟩, rfl⟩
  | run cap stop patience =>
    obtain ⟨hmachine, hresult⟩ := runFrom_eq hm (cap.or m.config.maxSteps) stop patience 0 m.outcome []
    obtain ⟨o, ho⟩ := hm.exists_lastReport m.outcome
      (m.stepsMade (runPauses (cap.or m.config.maxSteps) stop) 0 patience)
    exact ⟨⟨.outcome o, by rw [Machine.perform, runUntil, hresult, ho]; rfl⟩, hmachine⟩
  | trace cap taken requests =>
    obtain ⟨hmachine, hresult⟩ := traceFrom_eq hm cap requests taken [] []
    exact ⟨⟨.snapshots _, by rw [Machine.perform, hresult]; rfl⟩, hmachine⟩
  | inspect what => cases what <;> exact ⟨⟨_, rfl⟩, rfl⟩

/-- A machine that has stopped stays as it is whatever it is asked for. -/
theorem Sound.perform_of_stopped (hm : m.Sound) (h : m.isRunning = false) (c : Call) :
    (m.perform c).2 = m := by
  rw [(hm.perform c).2, iterate_advance_of_stopped h]

/-! ### What the status says -/

/-- The current state has transitions, and none of them fits the symbols under the heads. -/
def LacksTransition (m : Machine) : Prop :=
  ∃ s, m.program.state? m.state = some s ∧ s.isHalting = false ∧ s.lookup m.currentSymbols = none

/-- The status of the machine says why it is running or has stopped, and its error says where no transition
fits. -/
structure Truthful (m : Machine) : Prop where
  running : m.status = .running → ∃ s, m.program.state? m.state = some s ∧ s.isHalting = false
  halted : m.status = .halted →
    (∀ s, m.program.state? m.state = some s → s.isHalting = true) ∨
      m.mode = .normal ∧ m.LacksTransition
  error : m.status.error?.isSome = true ↔ m.status.text = "errored"
  errored : ∀ cause, m.status.error? = some cause →
    m.mode = .strict ∧ cause.state = m.state ∧ cause.read = m.currentSymbols ∧ m.LacksTransition

theorem error?_isSome_iff (s : Status) : s.error?.isSome = true ↔ s.text = "errored" := by
  cases s <;> simp [Status.error?, Status.text]

/-- A machine that has just entered a state is running if the state has transitions. -/
theorem truthful_of_entryStatus (h : m.status = entryStatus m.program m.state) : m.Truthful := by
  have herror := error?_isSome_iff m.status
  rw [entryStatus] at h
  split at h
  · next hhalts =>
    exact ⟨by simp [h], fun _ => .inl (Program.haltsIn_iff.1 hhalts), herror, by simp [h, Status.error?]⟩
  · next hhalts =>
    exact ⟨fun _ => Program.not_haltsIn_iff.1 hhalts, by simp [h], herror, by simp [h, Status.error?]⟩

theorem status_stuck_ne_running (m : Machine) : m.stuck.status ≠ .running := by
  unfold stuck stuckStatus
  cases m.mode <;> simp

/-- A machine that sticks lacks a transition, in the state in which it was running. -/
theorem lacksTransition_stuck (hm : m.Sound) (hrun : m.status = .running) (ht : m.Truthful)
    (fits : m.program.transition? m.state m.currentSymbols = none) : m.stuck.LacksTransition := by
  obtain ⟨s, hs, hhalting⟩ := ht.running hrun
  refine ⟨s, hs, hhalting, ?_⟩
  rw [currentSymbols_stuck hm]
  simpa [Program.transition?, hs] using fits

/-- **Every step leaves a truthful machine.** -/
theorem Truthful.takes (hm : m.Sound) (ht : m.Truthful) (h : m.Takes o m') : m'.Truthful := by
  cases h with
  | rests => exact ht
  | sticks running fits =>
    have hlacks := lacksTransition_stuck hm running ht fits
    have hstatus : m.stuck.status = m.stuckStatus m.currentSymbols := rfl
    rw [stuckStatus] at hstatus
    cases hmode : m.mode with
    | normal =>
      rw [hmode] at hstatus
      exact ⟨by simp [hstatus], fun _ => .inr ⟨hmode, hlacks⟩, error?_isSome_iff _,
        by simp [hstatus, Status.error?]⟩
    | strict =>
      rw [hmode] at hstatus
      refine ⟨by simp [hstatus], by simp [hstatus], error?_isSome_iff _, ?_⟩
      intro cause hcause
      obtain rfl : (⟨m.state, m.currentSymbols⟩ : Undefined) = cause := by
        simpa [hstatus, Status.error?] using hcause
      exact ⟨hmode, rfl, (currentSymbols_stuck hm).symm, hlacks⟩
  | fires => exact truthful_of_entryStatus rfl

/-! ### The machines that are reached -/

/-- What is true of a machine for the program `p` that has fired the transitions `fired`. -/
structure Accounted (p : Program) (mode : Mode) (config : TapeLang.Config) (fired : List Transition)
    (m : Machine) : Prop where
  sound : m.Sound
  program : m.program = p
  mode : m.mode = mode
  config : m.config = config
  truthful : m.Truthful
  steps : m.steps = fired.length

theorem accounted_start (hsound : (start p mode config).Sound) :
    Accounted p mode config [] (start p mode config) :=
  ⟨hsound, rfl, rfl, rfl, truthful_of_entryStatus rfl, rfl⟩

/-- A step counts the transition that it fires. -/
theorem Takes.steps_eq (h : m.Takes o m') : m'.steps = m.steps + o.transition.toList.length := by
  cases h <;> rfl

theorem Takes.mode_eq (h : m.Takes o m') : m'.mode = m.mode ∧ m'.config = m.config := by
  cases h <;> exact ⟨rfl, rfl⟩

/-- **A step adds the transition that it fires to the account.** -/
theorem Accounted.takes (hm : Accounted p mode config fired m) (h : m.Takes o m') :
    Accounted p mode config (fired ++ o.transition.toList) m' := by
  obtain ⟨hsound, hprogram⟩ := hm.sound.takes h
  obtain ⟨hmode, hconfig⟩ := h.mode_eq
  refine ⟨hsound, hprogram.trans hm.program, hmode.trans hm.mode, hconfig.trans hm.config,
    hm.truthful.takes hm.sound h, ?_⟩
  rw [h.steps_eq, hm.steps, List.length_append]

theorem firings_succ (m : Machine) (k : Nat) {o : Outcome} (hstep : (advance^[k] m).step.1 = .ok o) :
    m.firings (k + 1) = m.firings k ++ o.transition.toList := by
  rw [firings, List.range_succ, List.filterMap_append, firings]
  cases htransition : o.transition <;> simp [hstep, Except.toOption, htransition]

theorem Accounted.iterate (hm : Accounted p mode config fired m) (k : Nat) :
    Accounted p mode config (fired ++ m.firings k) (advance^[k] m) := by
  induction k with
  | zero => simpa [firings] using hm
  | succ k ih =>
    obtain ⟨o, hstep, htakes⟩ := ih.sound.step_eq
    rw [firings_succ m k (congrArg Prod.fst hstep), ← List.append_assoc, Function.iterate_succ_apply']
    exact ih.takes htakes

/-- **Every machine that is reached is accounted for.** -/
theorem Reached.accounted (hsound : (Machine.start p mode config).Sound)
    (h : Reached p mode config fired m) : Accounted p mode config fired m := by
  induction h with
  | start => exact accounted_start hsound
  | @call fired m _ c ih =>
    rw [(ih.sound.perform c).2]
    exact ih.iterate (m.stepsOf c)
  | @reset fired m _ ih =>
    have hreset : m.reset = Machine.start p mode config := by
      rw [Machine.reset, ih.program, ih.mode, ih.config]
    rw [hreset]
    exact accounted_start hsound

/-- Every machine that is reached is a fresh machine after some steps. -/
theorem Reached.exists_iterate (hsound : (Machine.start p mode config).Sound)
    (h : Reached p mode config fired m) : ∃ n, m = advance^[n] (Machine.start p mode config) := by
  induction h with
  | start => exact ⟨0, rfl⟩
  | @call fired m reached c ih =>
    obtain ⟨n, hn⟩ := ih
    refine ⟨m.stepsOf c + n, ?_⟩
    rw [Function.iterate_add_apply, ← hn]
    exact ((reached.accounted hsound).sound.perform c).2
  | @reset fired m reached _ =>
    have haccount := reached.accounted hsound
    exact ⟨0, by rw [Machine.reset, haccount.program, haccount.mode, haccount.config]; rfl⟩

end Machine

/-- A program that has been read and built from a text is well formed, on its own tapes and on others. -/
theorem wellFormed_of_input {text : List Char} {file : String} {tree : Ast.Program} {p q : Program}
    (hparse : parse text file = .ok tree) (hbuild : build tree = .ok p)
    (hq : q = p ∨ ∃ rows, p.withTapes rows = .ok q) : q.WellFormed := by
  have hp := wellFormed_of_build hparse hbuild
  rcases hq with rfl | ⟨rows, hrows⟩
  · exact hp
  · exact hp.withTapes hrows

/-- **The status of a machine tells the truth.** Take a program that has been read and built from a text, on
its own tapes or on others, and a machine that any calls and resets have led to. Its status says why it is
running or has stopped, and its counter is the number of transitions fired since the last reset. No call
breaks down, each makes some steps in a row and nothing else, and none changes a machine that has stopped. -/
theorem status_tells_the_truth (text : List Char) (file : String) (tree : Ast.Program) (p q : Program)
    (hparse : parse text file = .ok tree) (hbuild : build tree = .ok p)
    (hq : q = p ∨ ∃ rows, p.withTapes rows = .ok q) (mode : Mode) (config : Config)
    (fired : List Transition) (m : Machine) (hm : Machine.Reached q mode config fired m) :
    m.Accounted q mode config fired ∧
      (∀ c, (∃ a, (m.perform c).1 = .ok a) ∧ (m.perform c).2 = Machine.advance^[m.stepsOf c] m) ∧
      (m.status ≠ .running → ∀ c, (m.perform c).2 = m) := by
  have hsound := (wellFormed_of_input hparse hbuild hq).sound_start mode config
  have haccount := hm.accounted hsound
  refine ⟨haccount, haccount.sound.perform, fun hstopped c => ?_⟩
  exact haccount.sound.perform_of_stopped (Machine.isRunning_eq_false_iff.2 hstopped) c

/-- A text whose machine writes over one symbol after the other until it reads something else. -/
def overwriteText : List Char := "tape: a\nrules:\n  q:\n    a -> b, R, q\n".toList

/-- A strict machine after a run with a cap, a reset, one snapshot of a trace, a look at the next transition,
and a run that nothing stops but the machine itself. -/
def overwritten (q : Program) : Machine :=
  let capped := ((Machine.start q .strict {}).perform (.run (some 1) (fun _ => false) 9)).2
  let traced := (capped.reset.perform (.trace none 0 1)).2
  ((traced.perform (.inspect .transition)).2.perform (.run none (fun _ => false) 9)).2

/-- The machine has fired two transitions since the reset and stopped with an error, which it keeps. -/
theorem status_tells_the_truth_overwritten :
    ∃ tree p q, parse overwriteText "m" = .ok tree ∧ build tree = .ok p ∧
      p.withTapes [["a", "a", "b"]] = .ok q ∧ (overwritten q).status = .errored ⟨"q", ["b"]⟩ ∧
      ∃ fired, Machine.Reached q .strict {} fired (overwritten q) ∧ fired.length = 2 ∧
        (overwritten q).Accounted q .strict {} fired ∧
        ((overwritten q).perform .step).2 = overwritten q := by
  have heval : ((parse overwriteText "m").toOption.bind fun tree => (build tree).toOption.bind fun p =>
      (p.withTapes [["a", "a", "b"]]).toOption.map fun q =>
        ((overwritten q).status, (overwritten q).steps)) = some (.errored ⟨"q", ["b"]⟩, 2) := by
    decide +kernel
  simp only [Option.bind_eq_some_iff, Option.map_eq_some_iff, toOption_eq_some_iff, Prod.mk.injEq]
    at heval
  obtain ⟨tree, hparse, p, hbuild, q, hrows, hstatus, hsteps⟩ := heval
  have hstart : Machine.Reached q .strict {} [] (Machine.start q .strict {}) := .start
  have hreached := (((hstart.call (.run (some 1) (fun _ => false) 9)).reset.call (.trace none 0 1)).call
    (.inspect .transition)).call (.run none (fun _ => false) 9)
  obtain ⟨haccount, -, hkept⟩ := status_tells_the_truth overwriteText "m" tree p q hparse hbuild
    (.inr ⟨_, hrows⟩) .strict {} _ (overwritten q) hreached
  refine ⟨tree, p, q, hparse, hbuild, hrows, hstatus, _, hreached, ?_, haccount, ?_⟩
  · rw [← haccount.steps, hsteps]
  · exact hkept (by rw [hstatus]; decide) .step

/-! ### Looking ahead -/

namespace Machine

variable {m m' : Machine} {o : Outcome}

/-- A step reads the symbols under the heads, unless the machine has stopped. -/
theorem Takes.read_eq (h : m.Takes o m') : o.read = if m.isRunning then some m.currentSymbols else none := by
  cases h with
  | rests stopped => rw [isRunning_eq_false_iff.2 stopped]; rfl
  | sticks running => rw [isRunning_iff.2 running]; rfl
  | fires running => rw [isRunning_iff.2 running]; rfl

/-- A step fires the current transition. -/
theorem Takes.transition_eq (h : m.Takes o m') : o.transition = m.currentTransition := by
  unfold currentTransition
  cases h with
  | rests stopped => rw [isRunning_eq_false_iff.2 stopped]; rfl
  | sticks running fits => rw [isRunning_iff.2 running, if_pos rfl, fits]; rfl
  | fires running fits => rw [isRunning_iff.2 running, if_pos rfl, fits]; rfl

/-- The machine after some looks at it. -/
def afterLooks (m : Machine) (looks : List Inspection) : Machine :=
  looks.foldl (fun m what => (m.inspect what).2) m

theorem afterLooks_eq (m : Machine) (looks : List Inspection) : m.afterLooks looks = m := by
  induction looks with
  | nil => rfl
  | cons what looks ih => cases what <;> exact ih

end Machine

/-- The access that stores a cell and the one that does not see the same symbol everywhere. -/
theorem Tape.read?_eq {t : Tape} (h : t.blank.length = 1) (position : Int) :
    t.read? position = some (t.peek position, t.reach position) := by
  rw [read?, cell?_reach h]
  rfl

/-- **Looking at a machine tells what its next step will do.** Take a program that has been read and built
from a text, on its own tapes or on others, and a machine that any calls and resets have led to. Its next
step fires the current transition and, if it is running, reads the current symbols. Looking at the machine,
however often, changes neither what the step reports nor the machine after it, down to the bounds of the
stored cells; for at every position the access that stores a cell gives the symbol that a look gives. -/
theorem peeking_predicts_stepping (text : List Char) (file : String) (tree : Ast.Program) (p q : Program)
    (hparse : parse text file = .ok tree) (hbuild : build tree = .ok p)
    (hq : q = p ∨ ∃ rows, p.withTapes rows = .ok q) (mode : Mode) (config : Config)
    (fired : List Transition) (m : Machine) (hm : Machine.Reached q mode config fired m)
    (looks : List Inspection) :
    ∃ o, m.step.1 = .ok o ∧ o.transition = m.currentTransition ∧
      (o.read = if m.isRunning then some m.currentSymbols else none) ∧
      (m.afterLooks looks).step.1 = .ok o ∧
      (m.afterLooks looks).step.2.snapshot = m.step.2.snapshot ∧
      (m.afterLooks looks).step.2.tapes.map Tape.bounds = m.step.2.tapes.map Tape.bounds ∧
      ∀ t ∈ m.tapes, ∀ position, t.read? position = some (t.peek position, t.reach position) := by
  have hsound := (wellFormed_of_input hparse hbuild hq).sound_start mode config
  have haccount := hm.accounted hsound
  obtain ⟨o, hstep, htakes⟩ := haccount.sound.step_eq
  rw [m.afterLooks_eq looks]
  refine ⟨o, congrArg Prod.fst hstep, htakes.transition_eq, htakes.read_eq, congrArg Prod.fst hstep, rfl,
    rfl, fun t ht => Tape.read?_eq (haccount.sound.blank t ht)⟩

/-- A machine that has walked off its tape to the left sees the blank symbol there and stores no cell. -/
theorem peeking_predicts_stepping_left_walk :
    ∃ tree p m o, parse leftWalk "m" = .ok tree ∧ build tree = .ok p ∧
      m = ((Machine.start p .strict {}).perform .step).2 ∧ m.snapshot.offsets = [0] ∧
      m.currentSymbols = ["."] ∧ m.step.1 = .ok o ∧ o.read = some ["."] ∧
      o.transition = m.currentTransition ∧
      (m.afterLooks [.symbols, .transition, .reads, .snapshot, .symbols]).step.1 = .ok o := by
  have heval : ((parse leftWalk "m").toOption.bind fun tree => (build tree).toOption.map fun p =>
      let m := ((Machine.start p .strict {}).perform .step).2
      (m.isRunning, m.snapshot.offsets, m.currentSymbols)) = some (true, [0], ["."]) := by
    decide +kernel
  simp only [Option.bind_eq_some_iff, Option.map_eq_some_iff, toOption_eq_some_iff, Prod.mk.injEq]
    at heval
  obtain ⟨tree, hparse, p, hbuild, hrun, hoffsets, hsymbols⟩ := heval
  have hstart : Machine.Reached p .strict {} [] (Machine.start p .strict {}) := .start
  obtain ⟨o, hstep, htransition, hread, hlooks, -⟩ := peeking_predicts_stepping leftWalk "m" tree p p
    hparse hbuild (.inl rfl) .strict {} _ _ (hstart.call .step)
    [.symbols, .transition, .reads, .snapshot, .symbols]
  rw [hrun, if_pos rfl, hsymbols] at hread
  exact ⟨tree, p, _, o, hparse, hbuild, rfl, hoffsets, hsymbols, hstep, hread, htransition, hlooks⟩

end TapeLang
