import Mathlib
import TapeLang.Proofs.Analysis
import TapeLang.Proofs.Step

/-!
# The check of the first step

The check of the start state works out what a machine will read first from the rows and the heads of the
program, with bounds of its own. A machine reads from tapes that grow on both sides. Nothing is required of
the program but that its blank symbol is one character: there may be more heads than tapes or fewer, and a
head may stand anywhere.

* `Machine.nextRead?`: the symbols that a running machine reads next;
* `Program.nextRead?_start`: a fresh machine reads what the check works out;
* `Program.StartLacks`: the start state has transitions, and none for given symbols;
* `Program.mem_startMatchFindings`: what the check finds;
* `Machine.fires_nothing_iff`, `Machine.step_start_of_unfit`: a step that finds no transition;
* `startReports_ne_nil_iff`: when the analysis has a report of the check;
* `start_match_is_exact`: the check foretells the first step.
-/

namespace TapeLang

/-- The symbols that a running machine reads in its next step: those of the cells under its heads, once
they are stored. -/
def Machine.nextRead? (m : Machine) : Option (List Symbol) :=
  Machine.readCells? (Machine.reachCells m.tapes m.heads) m.heads

/-! ### The first symbols -/

namespace Program

variable {p : Program}

theorem initialSymbol_eq (p : Program) : p.initialSymbol = Tape.contents p.blank := by
  funext row head
  unfold initialSymbol Tape.contents
  by_cases hneg : 0 ≤ head
  · by_cases hlast : head.toNat < row.length
    · have hbounds : 0 ≤ head ∧ head < row.length := ⟨hneg, by omega⟩
      rw [if_pos hneg, dif_pos hbounds, List.getElem?_eq_getElem hlast]
      rfl
    · have hbounds : ¬(0 ≤ head ∧ head < row.length) := by omega
      rw [if_pos hneg, dif_neg hbounds, List.getElem?_eq_none (by omega)]
      rfl
  · rw [if_neg hneg, dif_neg fun h => hneg h.1]

theorem currentSymbols_start (p : Program) (mode : Mode) (config : Config) :
    (Machine.start p mode config).currentSymbols = p.initialRead := by
  show List.zipWith Tape.peek (p.tapes.map fun row => Tape.ofList row p.blank) p.heads = p.initialRead
  rw [List.zipWith_map_left, initialRead, initialSymbol_eq]
  simp only [Tape.peek_ofList]

/-- **A fresh machine reads what the check works out.** -/
theorem nextRead?_start (hblank : p.blank.length = 1) (mode : Mode) (config : Config) :
    (Machine.start p mode config).nextRead? = some p.initialRead := by
  rw [← p.currentSymbols_start mode config]
  exact Machine.readCells?_reachCells (Machine.blank_of_mem_start hblank mode config) p.heads

/-! ### What the check finds -/

/-- The start state is `s`; it has transitions, and none of them stands under the symbols `read`. -/
def StartLacks (p : Program) (read : List Symbol) (s : State) : Prop :=
  (p.start, s) ∈ p.states.entries ∧ s.transitions.entries ≠ [] ∧
    ∀ t, (read, t) ∉ s.transitions.entries

theorem startLacks_iff {read : List Symbol} {s : State} :
    p.StartLacks read s ↔
      p.state? p.start = some s ∧ s.isHalting = false ∧ s.lookup read = none := by
  rw [StartLacks, ← Table.find?_eq_some_iff, ← Table.find?_eq_none_iff]
  simp [state?, State.isHalting, State.lookup, Table.isEmpty]

/-- The check finds the one state that can be found. -/
theorem mem_startMatchFindings {f : Finding} :
    f ∈ p.startMatchFindings ↔
      ∃ s, p.StartLacks p.initialRead s ∧ f = .startNoMatch s.name s.loc p.initialRead := by
  simp only [startLacks_iff, startMatchFindings]
  cases p.state? p.start with
  | none => simp
  | some s => simp [and_assoc]

theorem exists_startLacks_iff {read : List Symbol} :
    (∃ s, p.StartLacks read s) ↔ p.haltsIn p.start = false ∧ p.transition? p.start read = none := by
  simp only [startLacks_iff, haltsIn, transition?]
  cases p.state? p.start with
  | none => simp
  | some s => simp

end Program

/-! ### What the step does -/

namespace Machine

variable {m : Machine}

/-- A transition that is made is reported, unless the machine breaks down on the way. -/
theorem transition_of_fire {read : List Symbol} {t : Transition} {o : Outcome}
    (h : (m.fire read t).1 = .ok o) : o.transition = some t := by
  simp only [fire] at h
  split at h
  · cases h
    rfl
  · cases h

theorem fires_nothing_iff (hblank : ∀ t ∈ m.tapes, t.blank.length = 1) (hrun : m.status = .running) :
    (∃ o, m.step.1 = .ok o ∧ o.transition = none) ↔
      m.program.transition? m.state m.currentSymbols = none := by
  rw [step_of_running hblank hrun]
  cases m.program.transition? m.state m.currentSymbols with
  | none => exact iff_of_true ⟨_, rfl, rfl⟩ rfl
  | some t =>
    refine iff_of_false ?_ (by simp)
    rintro ⟨o, ho, hnone⟩
    rw [transition_of_fire ho] at hnone
    cases hnone

theorem status_start_eq_running_iff {p : Program} {mode : Mode} {config : TapeLang.Config} :
    (start p mode config).status = .running ↔ p.haltsIn p.start = false := by
  show entryStatus p p.start = .running ↔ p.haltsIn p.start = false
  unfold entryStatus
  cases p.haltsIn p.start <;> simp

/-- A fresh machine without a transition for its first symbols gets stuck on them. -/
theorem step_start_of_unfit {p : Program} {mode : Mode} {config : TapeLang.Config}
    (hblank : p.blank.length = 1) (hrun : (start p mode config).status = .running)
    (hnone : p.transition? p.start p.initialRead = none) :
    (start p mode config).step =
      (.ok ((start p mode config).stuck.outcome (some p.initialRead)), (start p mode config).stuck) := by
  rw [← p.currentSymbols_start mode config] at hnone ⊢
  exact step_of_unfit (blank_of_mem_start hblank mode config) hrun hnone

theorem status_stuck_start (p : Program) (mode : Mode) (config : TapeLang.Config) :
    (start p mode config).stuck.status = (start p mode config).stuckStatus p.initialRead := by
  rw [← p.currentSymbols_start mode config]
  rfl

end Machine

/-! ### What is reported -/

section Reports

variable {p : Program} {file : Option String}

theorem mem_startReports {d : Diagnostic} :
    d ∈ (analyze p file).filter (fun d => d.id = "start-no-match") ↔
      ∃ s, p.StartLacks p.initialRead s ∧
        d = (Finding.startNoMatch s.name s.loc p.initialRead).diagnostic file := by
  have hreports : (analyze p file).filter (fun d => d.id = "start-no-match") =
      p.startMatchFindings.map (Finding.diagnostic file) := Check.startMatch.filter_id_analyze p file
  simp only [hreports, List.mem_map, Program.mem_startMatchFindings]
  constructor
  · rintro ⟨f, ⟨s, hs, rfl⟩, rfl⟩
    exact ⟨s, hs, rfl⟩
  · rintro ⟨s, hs, rfl⟩
    exact ⟨_, ⟨s, hs, rfl⟩, rfl⟩

/-- **There is a report exactly if a fresh machine runs** and has no transition for its first symbols. -/
theorem startReports_ne_nil_iff (mode : Mode) (config : Config) :
    (analyze p file).filter (fun d => d.id = "start-no-match") ≠ [] ↔
      (Machine.start p mode config).status = .running ∧
        p.transition? p.start p.initialRead = none := by
  rw [Machine.status_start_eq_running_iff, ← Program.exists_startLacks_iff]
  constructor
  · intro hne
    obtain ⟨d, hd⟩ := List.exists_mem_of_ne_nil _ hne
    obtain ⟨s, hs, -⟩ := mem_startReports.1 hd
    exact ⟨s, hs⟩
  · rintro ⟨s, hs⟩
    exact List.ne_nil_of_mem (mem_startReports.2 ⟨s, hs, rfl⟩)

end Reports

/-- **The check of the start state foretells the first step.** Take any program whose blank symbol is one
character. The check reports that nothing matches exactly if the start state is declared with transitions
and none of them stands under the symbols that a fresh machine reads in its first step; these symbols are in
the report. Equally, it reports exactly if the machine is running and its first step fires nothing. The
machine then has made no transition; a normal one has halted, and a strict one has stopped with an error. -/
theorem start_match_is_exact (p : Program) (hblank : p.blank.length = 1) (file : Option String)
    (mode : Mode) (config : Config) :
    let m := Machine.start p mode config
    let reports := (analyze p file).filter fun d => d.id = "start-no-match"
    ∃ read, m.nextRead? = some read ∧
      (∀ d, d ∈ reports ↔
        ∃ s, p.StartLacks read s ∧ d = (Finding.startNoMatch s.name s.loc read).diagnostic file) ∧
      (∀ d ∈ reports, d.extra.find? "read" = some (.strs read)) ∧
      (reports ≠ [] ↔ m.status = .running ∧ ∃ o, m.step.1 = .ok o ∧ o.transition = none) ∧
      (reports ≠ [] →
        m.step.1 = .ok ⟨m.step.2.status, 0, p.start, some read, none⟩ ∧ m.step.2.steps = 0 ∧
          (mode = .normal → m.step.2.status = .halted) ∧
          (mode = .strict → m.step.2.status = .errored ⟨p.start, read⟩)) := by
  intro m reports
  have hreported : reports ≠ [] ↔ m.status = .running ∧ p.transition? p.start p.initialRead = none :=
    startReports_ne_nil_iff mode config
  refine ⟨p.initialRead, Program.nextRead?_start hblank mode config, fun d => mem_startReports, ?_, ?_, ?_⟩
  · intro d hd
    obtain ⟨s, -, rfl⟩ := mem_startReports.1 hd
    rfl
  · rw [hreported, and_congr_right_iff]
    intro hrun
    rw [Machine.fires_nothing_iff (Machine.blank_of_mem_start hblank mode config) hrun,
      p.currentSymbols_start mode config]
    exact Iff.rfl
  · intro hne
    obtain ⟨hrun, hnone⟩ := hreported.1 hne
    have hstatus := Machine.status_stuck_start p mode config
    rw [Machine.step_start_of_unfit hblank hrun hnone]
    refine ⟨rfl, rfl, ?_, ?_⟩
    · rintro rfl
      exact hstatus
    · rintro rfl
      exact hstatus

/-- Three tapes and two heads, both of which stand off their tapes, on either side; the start state has
transitions for other symbols. -/
def strayHeads : Program where
  name := none
  blank := "_"
  arity := 5
  tapes := [["a"], ["b"], ["c"]]
  heads := [-2, 7]
  states := .ofList
    [("q", ⟨"first", .ofList [(["a", "b"], ⟨["a", "b"], [], [], "q", {}⟩),
      (["_", "_", "c"], ⟨["_", "_", "c"], ["_", "_", "c"], [.stay, .stay, .stay], "q", {}⟩)], {}⟩)]
  start := "q"

/-- Nothing matches two blank symbols, and a strict machine stops with an error at once. -/
theorem start_match_is_exact_stray_heads :
    strayHeads.blank.length = 1 ∧
      (∃ d ∈ analyze strayHeads, d.id = "start-no-match" ∧
        d.extra.find? "read" = some (.strs ["_", "_"])) ∧
      (Machine.start strayHeads .strict).step.2.status = .errored ⟨"q", ["_", "_"]⟩ ∧
      (Machine.start strayHeads .strict).step.2.steps = 0 := by
  have hblank : strayHeads.blank.length = 1 := by decide
  obtain ⟨read, hread, -, hextra, -, hstep⟩ := start_match_is_exact strayHeads hblank none .strict {}
  have hvector : (Machine.start strayHeads .strict).nextRead? = some ["_", "_"] := by decide +kernel
  obtain rfl : ["_", "_"] = read := Option.some.inj (hvector.symm.trans hread)
  have hne : (analyze strayHeads).filter (fun d => d.id = "start-no-match") ≠ [] := by
    have hids : ((analyze strayHeads).filter (fun d => d.id = "start-no-match")).map Diagnostic.id =
        ["start-no-match"] := by decide +kernel
    intro hempty
    rw [hempty] at hids
    cases hids
  obtain ⟨d, hd⟩ := List.exists_mem_of_ne_nil _ hne
  obtain ⟨-, hsteps, -, hstrict⟩ := hstep hne
  refine ⟨hblank, ⟨d, (List.mem_filter.1 hd).1, ?_, hextra d hd⟩, hstrict rfl, hsteps⟩
  exact of_decide_eq_true (List.mem_filter.1 hd).2

end TapeLang
