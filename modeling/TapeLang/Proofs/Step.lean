import Mathlib
import TapeLang.Proofs.Table
import TapeLang.Proofs.Tape

/-!
# What one step of a machine does

A machine that keeps its counts right never breaks down, and its step is one of three: it rests because
it has stopped, it sticks because no transition fits, or it fires a transition.

* `Machine.Sound`: the counts that a step relies on;
* `Machine.Takes`: the three kinds of step, with the machine after each;
* `Machine.step_of_running`: what a running machine does, whatever its counts are;
* `Machine.Sound.step`, `Machine.Sound.takes`: every step is one of them and keeps the counts right.
-/

namespace TapeLang

/-- Each transition has an entry for each of `k` tapes. -/
def Program.Sized (p : Program) (k : Nat) : Prop :=
  ∀ e ∈ p.states.entries, ∀ e' ∈ e.2.transitions.entries,
    e'.2.write.length = k ∧ e'.2.move.length = k

/-- A transition that is found stands in the tables. -/
theorem Program.transition?_eq_some_iff {p : Program} {name : String} {read : List Symbol}
    {t : Transition} :
    p.transition? name read = some t ↔
      ∃ s, (name, s) ∈ p.states.entries ∧ (read, t) ∈ s.transitions.entries := by
  simp only [transition?, state?, State.lookup, Option.bind_eq_some_iff, Table.find?_eq_some_iff]

/-- A machine stops in a state that is not declared or has no transition. -/
theorem Program.haltsIn_eq_false_iff {p : Program} {name : String} :
    p.haltsIn name = false ↔
      ∃ s, (name, s) ∈ p.states.entries ∧ s.transitions.entries ≠ [] := by
  simp only [haltsIn, state?, ← Table.find?_eq_some_iff]
  cases p.states.find? name with
  | none => simp
  | some s => simp [State.isHalting, Table.isEmpty]

namespace Machine

/-- The tapes with a symbol written under each head. -/
def writeCells (ts : List Tape) (hs : List Int) (ws : List Symbol) : List Tape :=
  List.zipWith (fun t hw => t.write hw.1 hw.2) ts (hs.zip ws)

/-- The heads after their moves. -/
def moveHeads (hs : List Int) (ds : List Direction) : List Int :=
  List.zipWith (fun h d => h + d.delta) hs ds

/-! ### The tapes one after the other -/

section Cells

variable {ts : List Tape} {hs : List Int} {ws : List Symbol} {ds : List Direction}

theorem readCells?_reachCells (hblank : ∀ t ∈ ts, t.blank.length = 1) (hs : List Int) :
    readCells? (reachCells ts hs) hs = some (List.zipWith Tape.peek ts hs) := by
  induction ts generalizing hs with
  | nil => cases hs <;> rfl
  | cons t ts ih =>
    rw [List.forall_mem_cons] at hblank
    cases hs with
    | nil => rfl
    | cons h hs =>
      simp only [reachCells, readCells?, Tape.cell?_reach hblank.1, ih hblank.2 hs]
      rfl

/-- Acting on cells that are stored already is writing and moving. -/
theorem act_reachCells (hblank : ∀ t ∈ ts, t.blank.length = 1) (hhs : hs.length = ts.length)
    (hws : ws.length = ts.length) (hds : ds.length = ts.length) :
    act (reachCells ts hs) hs ws ds = (writeCells ts hs ws, moveHeads hs ds, true) := by
  induction ts generalizing hs ws ds with
  | nil =>
    rw [List.eq_nil_of_length_eq_zero hhs]
    rfl
  | cons t ts ih =>
    rw [List.forall_mem_cons] at hblank
    obtain ⟨h, hs, rfl⟩ := List.exists_cons_of_length_eq_add_one hhs
    obtain ⟨w, ws, rfl⟩ := List.exists_cons_of_length_eq_add_one hws
    obtain ⟨d, ds, rfl⟩ := List.exists_cons_of_length_eq_add_one hds
    simp only [List.length_cons, Nat.add_right_cancel_iff] at hhs hws hds
    simp only [reachCells, act, ih hblank.2 hhs hws hds, Tape.write_reach hblank.1]
    rfl

/-- Storing cells changes no tape as a function. -/
theorem map_peek_reachCells (hblank : ∀ t ∈ ts, t.blank.length = 1) (hs : List Int) :
    (reachCells ts hs).map Tape.peek = ts.map Tape.peek := by
  induction ts generalizing hs with
  | nil => cases hs <;> rfl
  | cons t ts ih =>
    rw [List.forall_mem_cons] at hblank
    cases hs with
    | nil => rfl
    | cons h hs => simp only [reachCells, List.map_cons, Tape.peek_reach hblank.1, ih hblank.2 hs]

/-- Writing changes each tape under its head. -/
theorem map_peek_writeCells (hblank : ∀ t ∈ ts, t.blank.length = 1) (hs : List Int)
    (ws : List Symbol) :
    (writeCells ts hs ws).map Tape.peek =
      List.zipWith (fun f hw => Function.update f hw.1 hw.2) (ts.map Tape.peek) (hs.zip ws) := by
  unfold writeCells
  induction ts generalizing hs ws with
  | nil => rfl
  | cons t ts ih =>
    rw [List.forall_mem_cons] at hblank
    cases hs with
    | nil => rfl
    | cons h hs =>
      cases ws with
      | nil => rfl
      | cons w ws =>
        simp only [List.zip_cons_cons, List.zipWith_cons_cons, List.map_cons,
          Tape.peek_write hblank.1, ih hblank.2]

theorem map_blank_reachCells (ts : List Tape) (hs : List Int) :
    (reachCells ts hs).map Tape.blank = ts.map Tape.blank := by
  induction ts generalizing hs with
  | nil => cases hs <;> rfl
  | cons t ts ih =>
    cases hs with
    | nil => rfl
    | cons h hs => simp only [reachCells, List.map_cons, Tape.blank_reach, ih hs]

theorem map_blank_writeCells (hhs : hs.length = ts.length) (hws : ws.length = ts.length) :
    (writeCells ts hs ws).map Tape.blank = ts.map Tape.blank := by
  have hlength : ts.length ≤ (hs.zip ws).length := by
    rw [List.length_zip, hhs, hws, Nat.min_self]
  calc (writeCells ts hs ws).map Tape.blank
      = (ts.zip (hs.zip ws)).map fun x => x.1.blank := by
        rw [writeCells, List.map_zipWith, ← List.map_uncurry_zip_eq_zipWith]
        simp only [Function.uncurry_def, Tape.blank_write]
    _ = ((ts.zip (hs.zip ws)).map Prod.fst).map Tape.blank := by rw [List.map_map]; rfl
    _ = ts.map Tape.blank := by rw [List.map_fst_zip hlength]

/-- Tapes with the same blank symbols serve as well. -/
theorem single_of_map_blank_eq {ts' : List Tape} (h : ts'.map Tape.blank = ts.map Tape.blank)
    (hblank : ∀ t ∈ ts, t.blank.length = 1) :
    ts'.length = ts.length ∧ ∀ t ∈ ts', t.blank.length = 1 := by
  refine ⟨by simpa using congrArg List.length h, ?_⟩
  intro t ht
  have hmem : t.blank ∈ ts.map Tape.blank := h ▸ List.mem_map_of_mem ht
  obtain ⟨t', ht', heq⟩ := List.mem_map.1 hmem
  exact heq ▸ hblank t' ht'

end Cells

/-! ### One step -/

/-- The counts that a step relies on: a head for each tape, an entry for each tape in every
transition, and a single blank symbol. -/
structure Sound (m : Machine) : Prop where
  blank : ∀ t ∈ m.tapes, t.blank.length = 1
  heads : m.heads.length = m.tapes.length
  sized : m.program.Sized m.tapes.length

/-- The machine after a step that finds no transition. -/
def stuck (m : Machine) : Machine :=
  { m with tapes := reachCells m.tapes m.heads, status := m.stuckStatus m.currentSymbols }

/-- The machine after a transition. -/
def fired (m : Machine) (t : Transition) : Machine :=
  { m with
    tapes := writeCells m.tapes m.heads t.write
    heads := moveHeads m.heads t.move
    state := t.next
    steps := m.steps + 1
    status := entryStatus m.program t.next }

/-- The three kinds of step. -/
inductive Takes (m : Machine) : Outcome → Machine → Prop
  | rests (stopped : m.status ≠ .running) : Takes m m.outcome m
  | sticks (running : m.status = .running)
      (fits : m.program.transition? m.state m.currentSymbols = none) :
      Takes m (m.stuck.outcome (some m.currentSymbols)) m.stuck
  | fires {t : Transition} (running : m.status = .running)
      (fits : m.program.transition? m.state m.currentSymbols = some t) :
      Takes m ((m.fired t).outcome (some m.currentSymbols) (some t)) (m.fired t)

variable {m m' : Machine} {o : Outcome}

/-- A transition that is found has an entry for each tape. -/
theorem Sound.sized_of_transition? (hm : m.Sound) {name : String} {read : List Symbol}
    {t : Transition} (h : m.program.transition? name read = some t) :
    t.write.length = m.tapes.length ∧ t.move.length = m.tapes.length := by
  obtain ⟨s, hs, ht⟩ := Program.transition?_eq_some_iff.1 h
  exact hm.sized _ hs _ ht

/-- A running machine reads the symbols under its heads and looks for their transition. The tapes are
extended before they are read, so no head stands beside its tape. -/
theorem step_of_running (hblank : ∀ t ∈ m.tapes, t.blank.length = 1) (hrun : m.status = .running) :
    m.step =
      match m.program.transition? m.state m.currentSymbols with
      | some t => fire { m with tapes := reachCells m.tapes m.heads } m.currentSymbols t
      | none => (.ok (m.stuck.outcome (some m.currentSymbols)), m.stuck) := by
  simp only [step, hrun, readCells?_reachCells hblank m.heads]
  rfl

theorem step_of_unfit (hblank : ∀ t ∈ m.tapes, t.blank.length = 1) (hrun : m.status = .running)
    (hfits : m.program.transition? m.state m.currentSymbols = none) :
    m.step = (.ok (m.stuck.outcome (some m.currentSymbols)), m.stuck) := by
  rw [step_of_running hblank hrun, hfits]

/-- **A step never breaks down,** and is one of the three kinds. -/
theorem Sound.step (hm : m.Sound) : ∃ o m', m.step = (.ok o, m') ∧ m.Takes o m' := by
  by_cases hrun : m.status = .running
  · cases hfits : m.program.transition? m.state m.currentSymbols with
    | none => exact ⟨_, _, step_of_unfit hm.blank hrun hfits, .sticks hrun hfits⟩
    | some t =>
      obtain ⟨hwrite, hmove⟩ := hm.sized_of_transition? hfits
      have hact := act_reachCells hm.blank hm.heads hwrite hmove
      refine ⟨_, _, ?_, .fires hrun hfits⟩
      rw [step_of_running hm.blank hrun, hfits]
      simp only [fire, hact, if_true]
      rfl
  · refine ⟨_, _, ?_, .rests hrun⟩
    unfold Machine.step
    split
    · contradiction
    · rfl

/-- The program stays, and the counts stay right. -/
theorem Sound.takes (hm : m.Sound) (h : m.Takes o m') : m'.Sound ∧ m'.program = m.program := by
  cases h with
  | rests => exact ⟨hm, rfl⟩
  | sticks =>
    obtain ⟨hlength, hblank⟩ := single_of_map_blank_eq (map_blank_reachCells m.tapes m.heads) hm.blank
    exact ⟨⟨hblank, hm.heads.trans hlength.symm, hlength.symm ▸ hm.sized⟩, rfl⟩
  | @fires t running fits =>
    obtain ⟨hwrite, hmove⟩ := hm.sized_of_transition? fits
    obtain ⟨hlength, hblank⟩ :=
      single_of_map_blank_eq (map_blank_writeCells hm.heads hwrite) hm.blank
    have hheads : (moveHeads m.heads t.move).length = m.tapes.length := by
      rw [moveHeads, List.length_zipWith, hm.heads, hmove, Nat.min_self]
    exact ⟨⟨hblank, hheads.trans hlength.symm, hlength.symm ▸ hm.sized⟩, rfl⟩

/-- The machine after a step. -/
def advance (m : Machine) : Machine := m.step.2

/-- What every step carries from `n` to `n + 1` holds after any number of steps, and no step breaks
down. -/
theorem Sound.advance_induction {P : Nat → Machine → Prop} (hm : m.Sound) (h : P 0 m)
    (step : ∀ {n m o m'}, m.Sound → P n m → m.Takes o m' → P (n + 1) m') (n : Nat) :
    (∃ o, (advance^[n] m).step.1 = .ok o) ∧ P n (advance^[n] m) := by
  -- soundness is what makes the next step exist, so it has to be carried along
  have hkeep : (advance^[n] m).Sound ∧ P n (advance^[n] m) := by
    induction n with
    | zero => exact ⟨hm, h⟩
    | succ n ih =>
      obtain ⟨o, m', heq, htakes⟩ := ih.1.step
      rw [Function.iterate_succ_apply', advance, heq]
      exact ⟨(ih.1.takes htakes).1, step ih.1 ih.2 htakes⟩
  obtain ⟨o, m', heq, -⟩ := hkeep.1.step
  exact ⟨⟨o, by rw [heq]⟩, hkeep.2⟩

theorem blank_of_mem_start {p : Program} (hblank : p.blank.length = 1) (mode : Mode)
    (config : TapeLang.Config) : ∀ t ∈ (start p mode config).tapes, t.blank.length = 1 := by
  intro t ht
  obtain ⟨row, -, rfl⟩ := List.mem_map.1 ht
  exact hblank

/-- A machine that is set up for a program with the right counts is sound. -/
theorem sound_start {p : Program} (hblank : p.blank.length = 1)
    (hheads : p.heads.length = p.tapes.length) (hsized : p.Sized p.tapes.length) (mode : Mode)
    (config : TapeLang.Config) : (start p mode config).Sound where
  blank := blank_of_mem_start hblank mode config
  heads := by rw [start, List.length_map, hheads]
  sized := by rw [start, List.length_map]; exact hsized

end Machine

end TapeLang
