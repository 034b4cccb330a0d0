import Mathlib
import TapeLang.Proofs.Calls

/-!
# Running, tracing and stepping agree

A run with a cap, a trace with a cap and a run that the caller stops leave the machine that as many steps
leave, and a trace shows every machine on the way.

* `Machine.Takes.steps_eq_iff`: when a step does not count;
* `runs_traces_and_steps_agree`: the three loops.
-/

namespace TapeLang

namespace Machine

variable {m m' : Machine} {o : Outcome} {n : Nat}

/-! ### Where the loops pause -/

/-- Where a pause is asked for from `n` steps on, there is one after `n` steps. -/
theorem pausesAt_of_eq {pauses : Nat → Bool} {bound : Nat} (h : ∀ i, pauses i = decide (n ≤ i))
    (hn : n ≤ bound) : PausesAt n pauses 0 bound where
  goes i hi := by
    rw [Nat.zero_add, h]
    simpa using hi
  ends := by
    rcases hn.eq_or_lt with heq | hlt
    · exact .inl heq
    · exact .inr ⟨hlt, by rw [Nat.zero_add, h]; simp⟩

theorem capReached_natCast (n i : Nat) : capReached (some n) i = decide (n ≤ i) := by
  simp [capReached]

theorem runPauses_cap (n i : Nat) : runPauses (some n) (fun _ => false) i = decide (n ≤ i) := by
  simp [runPauses, capReached]

theorem runPauses_stop (n i : Nat) : runPauses none (fun i => decide (n ≤ i)) i = decide (n ≤ i) := by
  simp [runPauses, capReached]

/-! ### Runs -/

/-- **A run with the cap `n` is `n` steps,** of which the last one made by a running machine is reported. -/
theorem Sound.run_cap (hm : m.Sound) {patience : Nat} (h : n ≤ patience) :
    let r := m.runUntil (some n) (fun _ => false) patience
    r.machine = Machine.advance^[n] m ∧
      r.result = m.lastReport m.outcome (m.stepsMade (capReached (some n)) 0 n) := by
  have hpause := pausesAt_of_eq (runPauses_cap n) h
  obtain ⟨hmachine, hresult⟩ := runFrom_eq hm (some n) (fun _ => false) patience 0 m.outcome []
  refine ⟨hmachine.trans (hpause.iterate_stepsMade m), hresult.trans ?_⟩
  rw [hpause.stepsMade_eq (pausesAt_of_eq (capReached_natCast n) le_rfl) m]

/-- A run that the caller lets go on `n` times is `n` steps, if there is no cap. -/
theorem Sound.run_stop (hm : m.Sound) (hcap : m.config.maxSteps = none) {patience : Nat}
    (h : n ≤ patience) :
    (m.runUntil none (fun i => decide (n ≤ i)) patience).machine = Machine.advance^[n] m := by
  have hpause := pausesAt_of_eq (runPauses_stop n) h
  have hrun := runFrom_eq hm none (fun i => decide (n ≤ i)) patience 0 m.outcome []
  rw [runUntil, hcap]
  exact hrun.1.trans (hpause.iterate_stepsMade m)

/-- **A trace with the cap `n` is `n` steps,** if it is asked for at least so many snapshots. -/
theorem Sound.trace_cap (hm : m.Sound) {requests : Nat} (h : n ≤ requests) :
    let r := traceFrom (some n) requests 0 m [] []
    r.machine = Machine.advance^[n] m ∧
      r.result = .ok ((List.range (m.stepsMade (capReached (some n)) 0 n)).map
        fun i => (Machine.advance^[i + 1] m).snapshot) := by
  have hpause := pausesAt_of_eq (capReached_natCast n) h
  obtain ⟨hmachine, hresult⟩ := traceFrom_eq hm (some n) requests 0 [] []
  refine ⟨hmachine.trans (hpause.iterate_stepsMade m), hresult.trans ?_⟩
  rw [hpause.stepsMade_eq (pausesAt_of_eq (capReached_natCast n) le_rfl) m]
  rfl

theorem run_natCast (m : Machine) (n : Nat) :
    m.run (some n) = m.runUntil (some n) (fun _ => false) n := rfl

theorem trace_natCast (m : Machine) (n : Nat) (take : Option Nat) :
    m.trace (some n) take = traceFrom (some n) (take.getD n) 0 m [] [] := rfl

/-- The machine as it is, and after each of `k` steps. -/
theorem snapshot_cons (m : Machine) (k : Nat) :
    m.snapshot :: (List.range k).map (fun i => (advance^[i + 1] m).snapshot) =
      (List.range (k + 1)).map fun i => (advance^[i] m).snapshot := by
  rw [List.range_succ_eq_map, List.map_cons, List.map_map]
  rfl

/-! ### The counter -/

/-- A machine that stopped on entering a state does not lack a transition. -/
theorem not_lacksTransition_of_entryStatus (h : m.status = entryStatus m.program m.state)
    (hstopped : m.status ≠ .running) : ¬m.LacksTransition := by
  rintro ⟨s, hs, hhalting, -⟩
  apply hstopped
  rw [h, entryStatus, if_neg (Program.not_haltsIn_iff.2 ⟨s, hs, hhalting⟩)]

/-- A running machine counts its step, unless it stops because no transition fits. -/
theorem Takes.steps_eq_iff (hm : m.Sound) (ht : m.Truthful) (hrun : m.status = .running)
    (h : m.Takes o m') :
    (m'.steps = m.steps ∨ m'.steps = m.steps + 1) ∧
      (m'.steps = m.steps ↔ m'.status ≠ .running ∧ m'.LacksTransition) := by
  cases h with
  | rests stopped => exact absurd hrun stopped
  | sticks running fits =>
    have hlacks := lacksTransition_stuck hm running ht fits
    exact ⟨.inl rfl, fun _ => ⟨status_stuck_ne_running m, hlacks⟩, fun _ => rfl⟩
  | @fires t running fits =>
    have hsteps : (m.fired t).steps = m.steps + 1 := rfl
    refine ⟨.inr hsteps, fun heq => ?_, fun hlacks => ?_⟩
    · omega
    · exact absurd hlacks.2 (not_lacksTransition_of_entryStatus rfl hlacks.1)

/-- **Each of the steps in a row counts,** except for the last one if it stops the machine because no
transition fits. -/
theorem Accounted.steps_iterate {p : Program} {mode : Mode} {config : TapeLang.Config}
    {fired : List Transition} (hm : Accounted p mode config fired m) {k : Nat}
    (hrunning : ∀ i < k, (advance^[i] m).isRunning = true) {i : Nat} (hi : i < k) :
    let before := advance^[i] m
    let after := advance^[i + 1] m
    (after.steps = before.steps ∨ after.steps = before.steps + 1) ∧
      (after.steps = before.steps ↔
        i + 1 = k ∧ (advance^[k] m).status ≠ .running ∧ (advance^[k] m).LacksTransition) := by
  have hiterate := hm.iterate i
  obtain ⟨o, -, htakes⟩ := hiterate.sound.step_eq
  obtain ⟨hcount, hlacks⟩ :=
    htakes.steps_eq_iff hiterate.sound hiterate.truthful (isRunning_iff.1 (hrunning i hi))
  rw [← Function.iterate_succ_apply' advance] at hcount hlacks
  refine ⟨hcount, hlacks.trans ⟨fun h => ?_, ?_⟩⟩
  · have hlast : i + 1 = k := by
      by_contra hne
      exact h.1 (isRunning_iff.1 (hrunning (i + 1) (by omega)))
    exact ⟨hlast, hlast ▸ h⟩
  · rintro ⟨rfl, h⟩
    exact h

end Machine

/-- **Running, tracing and stepping agree.** Take a program that has been read and built from a text, on its
own tapes or on others, a machine that any calls and resets have led to, and a number `n`, and let `k` of
the next `n` steps be those of a running machine.

A run with the cap `n` leaves the machine that `n` steps leave, and reports what the `k`-th step reports.
Two runs with caps are one run with the sum of the caps. A caller who lets a run go on `n` times, where
there is no cap, does the same as the cap `n`. A trace with the cap `n` leaves the same machine and shows
it after each of the `k` steps; each snapshot counts one step more than the one before, except that the last
one does not if the machine stopped there because no transition fits. -/
theorem runs_traces_and_steps_agree (text : List Char) (file : String) (tree : Ast.Program)
    (p q : Program) (hparse : parse text file = .ok tree) (hbuild : build tree = .ok p)
    (hq : q = p ∨ ∃ rows, p.withTapes rows = .ok q) (mode : Mode) (config : Config)
    (fired : List Transition) (m : Machine) (hm : Machine.Reached q mode config fired m) (n : Nat) :
    ∃ k ≤ n, (∀ i < n, i < k ↔ (Machine.advance^[i] m).isRunning = true) ∧
      ((m.run (some n)).machine = Machine.advance^[n] m ∧
        ∃ o, (m.run (some n)).result = .ok o ∧ m.lastReport m.outcome k = .ok o) ∧
      (∀ patience, n ≤ patience →
        (m.runUntil (some n) (fun _ => false) patience).machine = (m.run (some n)).machine ∧
        (m.runUntil (some n) (fun _ => false) patience).result = (m.run (some n)).result) ∧
      (∀ n' : Nat, ((m.run (some n)).machine.run (some n')).machine =
        (m.run (some (n + n' : Nat))).machine) ∧
      (config.maxSteps = none → ∀ patience, n ≤ patience →
        (m.runUntil none (fun i => decide (n ≤ i)) patience).machine = (m.run (some n)).machine) ∧
      ∀ take : Option Nat, (∀ requests ∈ take, n ≤ requests) →
        (m.trace (some n) take).machine = (m.run (some n)).machine ∧
        ∃ shots, (m.trace (some n) take).result = .ok shots ∧ shots.length = k ∧
          ∀ i before after, (m.snapshot :: shots)[i]? = some before → shots[i]? = some after →
            after = (Machine.advance^[i + 1] m).snapshot ∧
            (after.steps = before.steps ∨ after.steps = before.steps + 1) ∧
            (after.steps = before.steps ↔
              i + 1 = k ∧ (m.run (some n)).machine.status ≠ .running ∧
                (m.run (some n)).machine.LacksTransition) := by
  have hsound := (wellFormed_of_input hparse hbuild hq).sound_start mode config
  have haccount := hm.accounted hsound
  have hm := haccount.sound
  have hpause := Machine.pausesAt_of_eq (Machine.capReached_natCast n) le_rfl
  have hend := hpause.iterate_stepsMade m
  have hrun := hm.run_cap (le_refl n)
  rw [← m.run_natCast n] at hrun
  refine ⟨m.stepsMade (Machine.capReached (some n)) 0 n, hpause.stepsMade_le m,
    fun i hi => hpause.lt_stepsMade_iff hi, ⟨hrun.1, ?_⟩, ?_, ?_, ?_, ?_⟩
  · obtain ⟨o, ho⟩ := hm.exists_lastReport m.outcome (m.stepsMade (Machine.capReached (some n)) 0 n)
    exact ⟨o, hrun.2.trans ho, ho⟩
  · intro patience hpatience
    obtain ⟨hmachine, hresult⟩ := hm.run_cap hpatience
    exact ⟨hmachine.trans hrun.1.symm, hresult.trans hrun.2.symm⟩
  · intro n'
    rw [hrun.1, Machine.run_natCast, ((hm.iterate n).run_cap le_rfl).1, Machine.run_natCast,
      (hm.run_cap le_rfl).1, Nat.add_comm n n', Function.iterate_add_apply]
  · intro hcap patience hpatience
    rw [hm.run_stop (haccount.config ▸ hcap) hpatience, hrun.1]
  · intro take htake
    have hrequests : n ≤ take.getD n := by
      cases take with
      | none => exact le_rfl
      | some requests => exact htake requests rfl
    obtain ⟨hmachine, hresult⟩ := hm.trace_cap hrequests
    rw [Machine.trace_natCast]
    refine ⟨hmachine.trans hrun.1.symm, _, hresult, by simp, ?_⟩
    intro i before after hbefore hafter
    rw [Machine.snapshot_cons] at hbefore
    simp only [List.getElem?_map, Option.map_eq_some_iff, List.getElem?_eq_some_iff, List.getElem_range,
      List.length_range] at hbefore hafter
    obtain ⟨j, ⟨-, rfl⟩, rfl⟩ := hbefore
    obtain ⟨j', ⟨hi, rfl⟩, rfl⟩ := hafter
    rw [hrun.1, ← hend]
    exact ⟨rfl, haccount.steps_iterate (fun i hi => (Machine.of_lt_stepsMade hi).1) hi⟩

/-- A machine that has made one step fires one more transition and sticks: the run ends after two of the four
steps that the cap allows, and the last snapshot counts no more than the one before. -/
theorem runs_traces_and_steps_agree_overwrite :
    ∃ tree p q m, parse overwriteText "m" = .ok tree ∧ build tree = .ok p ∧
      p.withTapes [["a", "a", "b"]] = .ok q ∧ m = ((Machine.start q .strict {}).perform .step).2 ∧
      m.steps = 1 ∧ (m.trace (some 4)).result.map (List.map Snapshot.steps) = .ok [2, 2] ∧
      (m.run (some 4)).machine = Machine.advance^[4] m ∧
      ((m.run (some 4)).machine.run (some 1)).machine = (m.run (some 5)).machine ∧
      (m.trace (some 4)).machine = (m.run (some 4)).machine := by
  have heval : ((parse overwriteText "m").toOption.bind fun tree => (build tree).toOption.bind fun p =>
      (p.withTapes [["a", "a", "b"]]).toOption.map fun q =>
        let m := ((Machine.start q .strict {}).perform .step).2
        (m.steps, (m.trace (some 4)).result.toOption.map (List.map Snapshot.steps))) =
      some (1, some [2, 2]) := by
    decide +kernel
  simp only [Option.bind_eq_some_iff, Option.map_eq_some_iff, toOption_eq_some_iff, Prod.mk.injEq]
    at heval
  obtain ⟨tree, hparse, p, hbuild, q, hrows, hsteps, shots, hshots, hcounts⟩ := heval
  have hstart : Machine.Reached q .strict {} [] (Machine.start q .strict {}) := .start
  obtain ⟨k, -, -, ⟨hrun, -⟩, -, hsum, -, htrace⟩ := runs_traces_and_steps_agree overwriteText "m" tree p q
    hparse hbuild (.inr ⟨_, hrows⟩) .strict {} _ _ (hstart.call .step) 4
  refine ⟨tree, p, q, _, hparse, hbuild, hrows, rfl, hsteps, ?_, hrun, hsum 1, (htrace none (by simp)).1⟩
  rw [hshots, ← hcounts]
  rfl

end TapeLang
