import Mathlib
import TapeLang.Machine.Run
import TapeLang.Proofs.Step

/-!
# Runs and traces are steps in a row

A run and a trace have counters, caps and questions of their own, but all that they do to a machine is to
make steps, and a sound machine does not break down on the way.

* `Machine.Takes.together`, `Machine.Sound.iterate_together`: two machines side by side;
* `Machine.stepsMade`: how many steps in a row are made before something stops them;
* `Machine.PausesAt`: nothing but the machine itself stops them early;
* `Machine.runFrom_eq`, `Machine.traceFrom_eq`: a run and a trace are so many steps.
-/

namespace TapeLang

namespace Machine

variable {m : Machine}

/-! ### Machines that have stopped -/

theorem isRunning_iff : m.isRunning = true ↔ m.status = .running := beq_iff_eq

theorem isRunning_eq_false_iff : m.isRunning = false ↔ m.status ≠ .running := beq_eq_false_iff_ne

/-- A machine that has stopped stays as it is. -/
theorem step_of_stopped (h : m.isRunning = false) : m.step = (.ok m.outcome, m) := by
  rw [isRunning_eq_false_iff] at h
  unfold step
  split
  · contradiction
  · rfl

theorem iterate_advance_of_stopped (h : m.isRunning = false) (n : Nat) : advance^[n] m = m := by
  apply Function.iterate_fixed
  rw [advance, step_of_stopped h]

/-- A machine that is running after some steps was running after fewer. -/
theorem isRunning_of_le {i j : Nat} (hij : i ≤ j) (h : (advance^[j] m).isRunning = true) :
    (advance^[i] m).isRunning = true := by
  by_contra hi
  rw [Bool.not_eq_true] at hi
  have hj : advance^[j] m = advance^[i] m := by
    obtain ⟨d, rfl⟩ := Nat.exists_eq_add_of_le' hij
    rw [Function.iterate_add_apply, iterate_advance_of_stopped hi]
  rw [hj, hi] at h
  cases h

theorem Sound.step_eq (hm : m.Sound) : ∃ o, m.step = (.ok o, m.advance) ∧ m.Takes o m.advance := by
  obtain ⟨o, m', hstep, htakes⟩ := hm.step
  have hadvance : m.advance = m' := by rw [Machine.advance, hstep]
  exact ⟨o, hadvance ▸ hstep, hadvance ▸ htakes⟩

theorem Sound.advance (hm : m.Sound) : m.advance.Sound := by
  obtain ⟨o, -, htakes⟩ := hm.step_eq
  exact (hm.takes htakes).1

theorem Sound.iterate (hm : m.Sound) (n : Nat) : (Machine.advance^[n] m).Sound :=
  (hm.advance_induction (P := fun _ m => m.Sound) hm (fun hm _ htakes => (hm.takes htakes).1) n).2

/-! ### Two machines side by side -/

section Together

variable {a a' b b' : Machine} {o o' : Outcome}

/-- Steps of the same kind of two machines. -/
inductive TakeTogether (a b : Machine) : Outcome → Outcome → Machine → Machine → Prop
  | rest : TakeTogether a b a.outcome b.outcome a b
  | stick : TakeTogether a b (a.stuck.outcome (some a.currentSymbols))
      (b.stuck.outcome (some b.currentSymbols)) a.stuck b.stuck
  | fire (t : Transition) : TakeTogether a b ((a.fired t).outcome (some a.currentSymbols) (some t))
      ((b.fired t).outcome (some b.currentSymbols) (some t)) (a.fired t) (b.fired t)

/-- Two machines that find the same transition, if they run at all, make steps of the same kind. -/
theorem Takes.together (hrunning : a.status = .running ↔ b.status = .running)
    (htransition : a.program.transition? a.state a.currentSymbols =
      b.program.transition? b.state b.currentSymbols)
    (ha : a.Takes o a') (hb : b.Takes o' b') : TakeTogether a b o o' a' b' := by
  cases ha with
  | rests stopped =>
    cases hb with
    | rests => exact .rest
    | sticks running | fires running => exact absurd (hrunning.2 running) stopped
  | sticks running fits =>
    cases hb with
    | rests stopped => exact absurd (hrunning.1 running) stopped
    | sticks => exact .stick
    | fires _ fits' =>
      rw [htransition, fits'] at fits
      cases fits
  | @fires t running fits =>
    cases hb with
    | rests stopped => exact absurd (hrunning.1 running) stopped
    | sticks _ fits' =>
      rw [htransition, fits'] at fits
      cases fits
    | fires _ fits' =>
      rw [htransition, fits'] at fits
      cases fits
      exact .fire t

/-- What every two steps preserve of two machines, two runs of the same length preserve. -/
theorem Sound.iterate_together {R : Machine → Machine → Prop}
    (hstep : ∀ {a b o o' a' b'}, a.Sound → b.Sound → R a b → a.Takes o a' → b.Takes o' b' → R a' b')
    (ha : a.Sound) (hb : b.Sound) (h : R a b) (n : Nat) :
    R (Machine.advance^[n] a) (Machine.advance^[n] b) := by
  induction n with
  | zero => exact h
  | succ n ih =>
    obtain ⟨_, -, htakes⟩ := (ha.iterate n).step_eq
    obtain ⟨_, -, htakes'⟩ := (hb.iterate n).step_eq
    rw [Function.iterate_succ_apply', Function.iterate_succ_apply']
    exact hstep (ha.iterate n) (hb.iterate n) ih htakes htakes'

end Together

/-! ### Steps in a row -/

/-- How many steps in a row are made, after `taken` earlier ones, if no more than `bound` are wanted, a
machine that has stopped makes none, and none is made when `pauses` holds of the number made so far. -/
def stepsMade (pauses : Nat → Bool) (taken bound : Nat) (m : Machine) : Nat :=
  (List.range bound).findIdx fun i => !(advance^[i] m).isRunning || pauses (taken + i)

section StepsMade

variable {pauses : Nat → Bool} {taken bound : Nat}

theorem stepsMade_zero : m.stepsMade pauses taken 0 = 0 := rfl

theorem stepsMade_of_stopped (h : m.isRunning = false) : m.stepsMade pauses taken bound = 0 := by
  cases bound with
  | zero => rfl
  | succ bound => simp [stepsMade, List.range_succ_eq_map, List.findIdx_cons, h]

theorem stepsMade_of_pauses (h : pauses taken = true) : m.stepsMade pauses taken bound = 0 := by
  cases bound with
  | zero => rfl
  | succ bound => simp [stepsMade, List.range_succ_eq_map, List.findIdx_cons, h]

theorem stepsMade_succ (hrun : m.isRunning = true) (h : pauses taken = false) :
    m.stepsMade pauses taken (bound + 1) = m.advance.stepsMade pauses (taken + 1) bound + 1 := by
  have hshift : (fun i => !(advance^[i + 1] m).isRunning || pauses (taken + (i + 1))) =
      fun i => !(advance^[i] m.advance).isRunning || pauses (taken + 1 + i) := by
    funext i
    rw [Function.iterate_succ_apply, show taken + (i + 1) = taken + 1 + i by omega]
  simp [stepsMade, List.range_succ_eq_map, List.findIdx_cons, List.findIdx_map, Function.comp_def, hrun,
    h, ← hshift]

theorem stepsMade_le : m.stepsMade pauses taken bound ≤ bound :=
  List.findIdx_le_length.trans_eq List.length_range

/-- Each of the steps is made by a machine that is running, and nothing asks for a pause. -/
theorem of_lt_stepsMade {i : Nat} (hi : i < m.stepsMade pauses taken bound) :
    (advance^[i] m).isRunning = true ∧ pauses (taken + i) = false := by
  simpa using List.not_of_lt_findIdx hi

/-- There is a reason for every step that is not made. -/
theorem of_stepsMade_lt (h : m.stepsMade pauses taken bound < bound) :
    (advance^[m.stepsMade pauses taken bound] m).isRunning = false ∨
      pauses (taken + m.stepsMade pauses taken bound) = true := by
  unfold stepsMade at h ⊢
  simpa using List.findIdx_getElem (w := h.trans_eq List.length_range.symm)

end StepsMade

/-- Only the machine itself can stop the next `n` steps, and after them there is a pause. -/
structure PausesAt (n : Nat) (pauses : Nat → Bool) (taken bound : Nat) : Prop where
  goes : ∀ i < n, pauses (taken + i) = false
  ends : n = bound ∨ n < bound ∧ pauses (taken + n) = true

namespace PausesAt

variable {pauses pauses' : Nat → Bool} {n taken taken' bound bound' : Nat}

theorem stepsMade_le (h : PausesAt n pauses taken bound) (m : Machine) :
    m.stepsMade pauses taken bound ≤ n := by
  by_contra hlt
  rw [Nat.not_le] at hlt
  have hpause := (of_lt_stepsMade hlt).2
  rcases h.ends with rfl | ⟨-, hend⟩
  · exact absurd Machine.stepsMade_le (Nat.not_le.2 hlt)
  · rw [hend] at hpause
    cases hpause

/-- If fewer steps are made, the machine has stopped. -/
theorem stopped_of_stepsMade_lt (h : PausesAt n pauses taken bound)
    (hlt : m.stepsMade pauses taken bound < n) :
    (advance^[m.stepsMade pauses taken bound] m).isRunning = false := by
  have hbound : n ≤ bound := by
    rcases h.ends with heq | ⟨hle, -⟩
    · exact heq.le
    · exact hle.le
  refine (of_stepsMade_lt (hlt.trans_le hbound)).resolve_right ?_
  rw [h.goes _ hlt]
  decide

/-- The steps made are those of a machine that is running. -/
theorem lt_stepsMade_iff (h : PausesAt n pauses taken bound) {i : Nat} (hi : i < n) :
    i < m.stepsMade pauses taken bound ↔ (advance^[i] m).isRunning = true := by
  refine ⟨fun hlt => (of_lt_stepsMade hlt).1, fun hrun => ?_⟩
  by_contra hle
  rw [Nat.not_lt] at hle
  have hstopped := h.stopped_of_stepsMade_lt (hle.trans_lt hi)
  rw [isRunning_of_le hle hrun] at hstopped
  cases hstopped

/-- **The steps made come as far as `n` steps.** -/
theorem iterate_stepsMade (h : PausesAt n pauses taken bound) (m : Machine) :
    advance^[m.stepsMade pauses taken bound] m = advance^[n] m := by
  rcases (h.stepsMade_le m).lt_or_eq with hlt | heq
  · -- the machine has stopped, and the steps up to the `n`-th one leave it as it is
    obtain ⟨d, hd⟩ := Nat.exists_eq_add_of_le' hlt.le
    rw [hd, Function.iterate_add_apply, iterate_advance_of_stopped (h.stopped_of_stepsMade_lt hlt)]
  · rw [heq]

/-- How the pause comes about does not matter. -/
theorem stepsMade_eq (h : PausesAt n pauses taken bound) (h' : PausesAt n pauses' taken' bound')
    (m : Machine) : m.stepsMade pauses taken bound = m.stepsMade pauses' taken' bound' := by
  have hle := h.stepsMade_le m
  have hle' := h'.stepsMade_le m
  have hsame : ∀ i < n, i < m.stepsMade pauses taken bound ↔ i < m.stepsMade pauses' taken' bound' := by
    intro i hi
    rw [h.lt_stepsMade_iff hi, h'.lt_stepsMade_iff hi]
  by_contra hne
  rcases Nat.lt_or_gt_of_ne hne with hlt | hgt
  · exact absurd ((hsame _ (hlt.trans_le hle')).2 hlt) (lt_irrefl _)
  · exact absurd ((hsame _ (hgt.trans_le hle)).1 hgt) (lt_irrefl _)

end PausesAt

/-! ### Runs and traces -/

/-- What is reported after `k` steps: what the last of them reports, and `first` if there is none. -/
def lastReport (m : Machine) (first : Outcome) : Nat → Except Breakdown Outcome
  | 0 => .ok first
  | k + 1 => (advance^[k] m).step.1

theorem Sound.exists_lastReport (hm : m.Sound) (first : Outcome) (k : Nat) :
    ∃ o, m.lastReport first k = .ok o := by
  cases k with
  | zero => exact ⟨first, rfl⟩
  | succ k =>
    obtain ⟨o, hstep, -⟩ := (hm.iterate k).step_eq
    exact ⟨o, by rw [lastReport, hstep]⟩

theorem lastReport_advance {first o : Outcome} (hstep : m.step.1 = .ok o) (k : Nat) :
    m.advance.lastReport o k = m.lastReport first (k + 1) := by
  cases k with
  | zero => exact hstep.symm
  | succ k => rfl

/-- When a run pauses that has made `taken` steps. -/
def runPauses (cap : Option Int) (stop : Nat → Bool) (taken : Nat) : Bool :=
  capReached cap taken || stop taken

/-- **A run is steps in a row.** -/
theorem runFrom_eq (hm : m.Sound) (cap : Option Int) (stop : Nat → Bool) (patience taken : Nat)
    (last : Outcome) (log : List LogRecord) :
    let k := m.stepsMade (runPauses cap stop) taken patience
    (runFrom cap stop patience taken m last log).machine = advance^[k] m ∧
      (runFrom cap stop patience taken m last log).result = m.lastReport last k := by
  induction patience generalizing m taken last log with
  | zero =>
    unfold runFrom
    rw [stepsMade_zero]
    split_ifs <;> exact ⟨rfl, rfl⟩
  | succ patience ih =>
    by_cases hrun : m.isRunning = true
    · by_cases hpause : runPauses cap stop taken = true
      · rw [stepsMade_of_pauses hpause]
        rw [runPauses, Bool.or_eq_true] at hpause
        unfold runFrom
        rw [if_pos hrun]
        split_ifs with hcap hstop
        · exact ⟨rfl, rfl⟩
        · exact ⟨rfl, rfl⟩
        · exact absurd hpause (not_or.2 ⟨hcap, hstop⟩)
      · rw [Bool.not_eq_true] at hpause
        obtain ⟨o, hstep, -⟩ := hm.step_eq
        have hnext : runFrom cap stop (patience + 1) taken m last log =
            runFrom cap stop patience (taken + 1) m.advance o
              ((m.advance.stepNotes o).reverse ++ log) := by
          obtain ⟨hcap, hstop⟩ := Bool.or_eq_false_iff.1 hpause
          simp [runFrom, hrun, hcap, hstop, hstep]
        obtain ⟨hmachine, hresult⟩ := ih hm.advance (taken + 1) o _
        rw [hnext, stepsMade_succ hrun hpause]
        exact ⟨hmachine, hresult.trans (lastReport_advance (congrArg Prod.fst hstep) _)⟩
    · rw [Bool.not_eq_true] at hrun
      rw [stepsMade_of_stopped hrun]
      unfold runFrom
      rw [hrun]
      exact ⟨rfl, rfl⟩

/-- **A trace is steps in a row,** with a snapshot after each of them. -/
theorem traceFrom_eq (hm : m.Sound) (cap : Option Int) (requests taken : Nat) (shots : List Snapshot)
    (log : List LogRecord) :
    let k := m.stepsMade (capReached cap) taken requests
    (traceFrom cap requests taken m shots log).machine = advance^[k] m ∧
      (traceFrom cap requests taken m shots log).result =
        .ok (shots.reverse ++ (List.range k).map fun i => (advance^[i + 1] m).snapshot) := by
  induction requests generalizing m taken shots log with
  | zero => exact ⟨rfl, by simp [traceFrom, stepsMade_zero]⟩
  | succ requests ih =>
    by_cases hrun : m.isRunning = true
    · by_cases hcap : capReached cap taken = true
      · rw [stepsMade_of_pauses hcap]
        simp [traceFrom, hrun, hcap]
      · rw [Bool.not_eq_true] at hcap
        obtain ⟨o, hstep, -⟩ := hm.step_eq
        have hnext : traceFrom cap (requests + 1) taken m shots log =
            traceFrom cap requests (taken + 1) m.advance (m.advance.snapshot :: shots)
              ((m.advance.stepNotes o).reverse ++ log) := by
          simp [traceFrom, hrun, hcap, hstep]
        obtain ⟨hmachine, hresult⟩ := ih hm.advance (taken + 1) (m.advance.snapshot :: shots) _
        rw [hnext, stepsMade_succ hrun hcap]
        refine ⟨hmachine, hresult.trans ?_⟩
        -- the snapshot that has just been taken is the first of the new ones
        simp [List.range_succ_eq_map, Function.comp_def]
    · rw [Bool.not_eq_true] at hrun
      rw [stepsMade_of_stopped hrun]
      simp [traceFrom, hrun]

end Machine

end TapeLang
