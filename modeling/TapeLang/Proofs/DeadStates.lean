import Mathlib
import TapeLang.Machine.Snapshot
import TapeLang.Proofs.Reachability
import TapeLang.Proofs.Textbook

/-!
# Unreachable states are dead

No machine comes into a state that the check of reachability reports, so the reported states can be taken
out of the program and nobody will notice.

* `Program.reportedUnreachable`: the states that the check reports;
* `Table.restrict`, `Program.without`: a program without some of its states;
* `Machine.on`, `Machine.step_on`: the same machine with another program that has the states it needs;
* `unreachable_states_are_dead`: the runs of the two programs.
-/

namespace TapeLang

/-! ### Reported states -/

namespace Program

/-- The states that the check of reachability reports, with nothing suppressed. -/
def reportedUnreachable (p : Program) : List String :=
  (Check.run [.reachability] p none {}).diagnostics.filterMap fun d =>
    if d.id = "unreachable-state" then d.state else none

variable {p : Program} {name : String}

/-- The reported states are the declared states that the search does not find. -/
theorem mem_reportedUnreachable (hstart : p.start ∈ p.states.keys) :
    name ∈ p.reportedUnreachable ↔ name ∈ p.states.keys ∧ name ∉ p.reachable := by
  have hreported : p.reportedUnreachable =
      (p.states.entries.filter fun e => e.1 ∉ p.reachable).map Prod.fst := by
    rw [reportedUnreachable, Check.diagnostics_run, Check.findings, reachFindings_eq hstart, List.map_map,
      List.filterMap_map, ← List.filterMap_eq_map]
    rfl
  rw [hreported]
  simp [Table.keys]

/-- **No transition leads from a state that is not reported to one that is.** -/
theorem next_notMem_reportedUnreachable (hstart : p.start ∈ p.states.keys) {read : List Symbol}
    {t : Transition} (hname : name ∉ p.reportedUnreachable)
    (ht : p.transition? name read = some t) : t.next ∉ p.reportedUnreachable := by
  obtain ⟨s, hs, he⟩ := transition?_eq_some_iff.1 ht
  have hkey : name ∈ p.states.keys := List.mem_map_of_mem hs
  have hreach : name ∈ p.reachable := by
    by_contra hnot
    exact hname ((mem_reportedUnreachable hstart).2 ⟨hkey, hnot⟩)
  have htarget : t.next ∈ p.targets name := by
    rw [targets, state?, Table.find?_eq_some_iff.2 hs]
    exact List.mem_map_of_mem (List.mem_map_of_mem he)
  intro hnext
  obtain ⟨hdeclared, hunseen⟩ := (mem_reportedUnreachable hstart).1 hnext
  exact hunseen (next_mem_reachable hstart hreach htarget hdeclared)

end Program

/-! ### Taking states out -/

/-- The entries under the keys that are kept. -/
def Table.restrict {κ : Type} {α : Type} (t : Table κ α) (keep : κ → Bool) : Table κ α where
  entries := t.entries.filter fun e => keep e.1
  nodup := t.nodup.sublist ((List.filter_sublist).map Prod.fst)

theorem Table.find?_restrict {κ : Type} {α : Type} [DecidableEq κ] (t : Table κ α) {keep : κ → Bool}
    {k : κ} (hk : keep k = true) : (t.restrict keep).find? k = t.find? k := by
  refine Option.ext fun a => ?_
  rw [find?_eq_some_iff, find?_eq_some_iff]
  simp [restrict, hk]

/-- The program without the named states. Transitions to them stay. -/
def Program.without (p : Program) (names : List String) : Program :=
  { p with states := p.states.restrict (· ∉ names) }

theorem Program.state?_without {p : Program} {names : List String} {name : String}
    (h : name ∉ names) : (p.without names).state? name = p.state? name :=
  Table.find?_restrict p.states (by simpa using h)

/-! ### The same machine with another program -/

namespace Machine

/-- The machine with another program, in the middle of its run. -/
def on (m : Machine) (p : Program) : Machine := { m with program := p }

variable {m : Machine} {p : Program}

/-- **A step looks at the current state and at the state it comes to,** and at nothing else of the
program. -/
theorem step_on (hstate : p.state? m.state = m.program.state? m.state)
    (hnext : ∀ read t, m.program.transition? m.state read = some t →
      p.state? t.next = m.program.state? t.next) :
    (m.on p).step = (m.step.1, m.step.2.on p) := by
  have htransition : ∀ read, p.transition? m.state read = m.program.transition? m.state read := by
    intro read
    rw [Program.transition?, hstate, Program.transition?]
  obtain ⟨program, mode, config, tapes, heads, state, steps, status⟩ := m
  unfold step on
  cases status with
  | running =>
    dsimp only at hnext htransition ⊢
    cases readCells? (reachCells tapes heads) heads with
    | none => rfl
    | some read =>
      dsimp only
      rw [htransition]
      cases ht : program.transition? state read with
      | none => rfl
      | some t =>
        have hentry : entryStatus p t.next = entryStatus program t.next := by
          rw [entryStatus, Program.haltsIn, hnext read t ht, entryStatus, Program.haltsIn]
        simp only [fire, hentry]
        split <;> rfl
  | halted | errored cause => rfl

/-- A machine outside the states `dead` does not need them for its next step, if no transition leads into
them. -/
theorem step_on_without {q : Program} {dead : List String}
    (hnext : ∀ name read t, name ∉ dead → q.transition? name read = some t → t.next ∉ dead)
    (hprogram : m.program = q) (hstate : m.state ∉ dead) :
    (m.on (q.without dead)).step = (m.step.1, m.step.2.on (q.without dead)) := by
  subst hprogram
  refine step_on (Program.state?_without hstate) ?_
  intro read t ht
  exact Program.state?_without (hnext _ _ _ hstate ht)

/-- A machine that never comes into one of the states `dead` runs in the same way without them. -/
theorem iterate_advance_on {q : Program} {dead : List String} (mode : Mode) (config : TapeLang.Config)
    (hnext : ∀ name read t, name ∉ dead → q.transition? name read = some t → t.next ∉ dead)
    (hrun : ∀ n, (advance^[n] (start q mode config)).program = q ∧
      (advance^[n] (start q mode config)).state ∉ dead) (n : Nat) :
    advance^[n] (start (q.without dead) mode config) =
      (advance^[n] (start q mode config)).on (q.without dead) := by
  induction n with
  | zero =>
    have hstart : q.start ∉ dead := (hrun 0).2
    have hentry : entryStatus (q.without dead) q.start = entryStatus q q.start := by
      rw [entryStatus, Program.haltsIn, Program.state?_without hstart, entryStatus, Program.haltsIn]
    show start (q.without dead) mode config = (start q mode config).on (q.without dead)
    simp only [start, on, ← hentry]
    rfl
  | succ n ih =>
    rw [Function.iterate_succ_apply', Function.iterate_succ_apply', ih, advance,
      step_on_without hnext (hrun n).1 (hrun n).2]
    rfl

end Machine

/-- **No machine comes into a state that is reported as unreachable.** -/
theorem Program.WellFormed.state_notMem_reportedUnreachable {q : Program} (h : q.WellFormed)
    (mode : Mode) (config : Config) (n : Nat) :
    (Machine.advance^[n] (Machine.start q mode config)).program = q ∧
      (Machine.advance^[n] (Machine.start q mode config)).state ∉ q.reportedUnreachable := by
  have hstart := Table.contains_iff.1 h.contains_start
  refine ((h.sound_start mode config).advance_induction
    (P := fun _ m => m.program = q ∧ m.state ∉ q.reportedUnreachable) ⟨rfl, ?_⟩ ?_ n).2
  · exact fun hmem => ((Program.mem_reportedUnreachable hstart).1 hmem).2
      (Program.start_mem_reachable hstart)
  · rintro n m o m' hsound ⟨hprogram, hstate⟩ htakes
    refine ⟨(hsound.takes htakes).2.trans hprogram, ?_⟩
    cases htakes with
    | rests => exact hstate
    | sticks => exact hstate
    | fires running fits =>
      rw [hprogram] at fits
      exact Program.next_notMem_reportedUnreachable hstart hstate fits

/-- **States that are reported as unreachable are dead.** Take a program that has been read and built from
a text, on its own tapes or on others. After any number of steps its machine is in no state that the check
of reachability reports. If these states are taken out of the program, the machine makes the same steps
with the same outcomes, and looks the same after each of them. -/
theorem unreachable_states_are_dead (text : List Char) (file : String) (tree : Ast.Program)
    (p q : Program) (hparse : parse text file = .ok tree) (hbuild : build tree = .ok p)
    (hq : q = p ∨ ∃ rows, p.withTapes rows = .ok q) (mode : Mode) (config : Config) (n : Nat) :
    let m := Machine.advance^[n] (Machine.start q mode config)
    let m' := Machine.advance^[n] (Machine.start (q.without q.reportedUnreachable) mode config)
    m.state ∉ q.reportedUnreachable ∧ (∃ o, m.step.1 = .ok o ∧ m'.step.1 = .ok o) ∧
      m'.snapshot = m.snapshot ∧ m'.status = m.status := by
  intro m m'
  have hp := wellFormed_of_build hparse hbuild
  have hwell : q.WellFormed := by
    rcases hq with rfl | ⟨rows, hrows⟩
    · exact hp
    · exact hp.withTapes hrows
  have hstart := Table.contains_iff.1 hwell.contains_start
  have hrun := hwell.state_notMem_reportedUnreachable mode config
  have hnext : ∀ name read t, name ∉ q.reportedUnreachable → q.transition? name read = some t →
      t.next ∉ q.reportedUnreachable := fun _ _ _ =>
    Program.next_notMem_reportedUnreachable hstart
  have hmachine : m' = m.on (q.without q.reportedUnreachable) :=
    Machine.iterate_advance_on mode config hnext hrun n
  obtain ⟨o, ho⟩ : ∃ o, m.step.1 = .ok o :=
    ((hwell.sound_start mode config).advance_induction (P := fun _ _ => True) trivial
      (fun _ _ _ => trivial) n).1
  refine ⟨(hrun n).2, ⟨o, ho, ?_⟩, ?_, ?_⟩
  · rw [hmachine, Machine.step_on_without hnext (hrun n).1 (hrun n).2]
    exact ho
  · rw [hmachine]
    rfl
  · rw [hmachine]
    rfl

/-- A text in which two states lead to each other and to the start state, but no transition leads to them;
the start state leads to a state that is not declared. -/
def islandText : List Char :=
  ("tape: a, b\nrules:\n  q:\n    a -> b, R, q\n    b, L, r\n  r:\n    b, R, gone\n" ++
    "  x:\n    a, R, y\n  y:\n    a, R, x\n    b, L, q\n").toList

/-- Two states are taken out, and the machine still walks into the state that is not declared. -/
theorem unreachable_states_are_dead_island :
    ∃ tree p q, parse islandText "m" = .ok tree ∧ build tree = .ok p ∧
      p.withTapes [["a", "a", "b"]] = .ok q ∧ q.reportedUnreachable = ["x", "y"] ∧
      (Machine.advance^[4] (Machine.start (q.without q.reportedUnreachable) .strict {})).snapshot =
        (Machine.advance^[4] (Machine.start q .strict {})).snapshot := by
  have heval : ((parse islandText "m").toOption.bind fun tree => (build tree).toOption.bind fun p =>
      (p.withTapes [["a", "a", "b"]]).toOption.map Program.reportedUnreachable) =
        some ["x", "y"] := by decide +kernel
  simp only [Option.bind_eq_some_iff, Option.map_eq_some_iff, toOption_eq_some_iff] at heval
  obtain ⟨tree, hparse, p, hbuild, q, hrows, hdead⟩ := heval
  obtain ⟨-, -, hsnapshot, -⟩ := unreachable_states_are_dead islandText "m" tree p q hparse hbuild
    (.inr ⟨_, hrows⟩) .strict {} 4
  exact ⟨tree, p, q, hparse, hbuild, hrows, hdead, hsnapshot⟩

end TapeLang
