import Mathlib
import TapeLang.Proofs.Analysis
import TapeLang.Proofs.Step

/-!
# Programs without errors run

Nothing is required of a program but that its blank symbol is one character. If the checks report no
error in it, its counts agree and its transitions stay among the declared states, and this is all that a
machine relies on.

* `Check.findings_eq_nil`: the checks that report errors have found nothing;
* `Program.IsClean`, `Program.isClean_of_errors`: what the absence of errors says about a program;
* `Machine.Explains`: why a machine in a given state is running or has stopped;
* `Machine.OnCourse`, `Machine.OnCourse.takes`: what every step of a machine keeps;
* `clean_program_runs`: what is true after any number of steps.
-/

namespace TapeLang

/-! ### The absence of errors -/

section Errors

variable {p : Program} {file : Option String} {minSeverity : Severity}

/-- Where nothing is suppressed, an error is reported whatever the least severity is. -/
theorem Collector.keeps_of_isError {d : Diagnostic} (h : d.isError = true) :
    Collector.keeps { minSeverity := minSeverity } d = true := by
  have hseverity : d.severity = .error := by simpa [Diagnostic.isError] using h
  have hcovers : Suppressions.covers {} d = false := by
    unfold Suppressions.covers
    cases d.location <;> rfl
  simp [keeps, hseverity, hcovers, Severity.rank]

/-- Three checks report errors only. -/
theorem Check.isError_of_mem {check : Check} (hcheck : check ∈ [.startState, .undefinedStates, .arity])
    {f : Finding} (hf : f ∈ check.findings p) (file : Option String) :
    (f.diagnostic file).isError = true := by
  rw [f.isError_diagnostic, check_of_mem hf]
  fin_cases hcheck <;> rfl

/-- These checks find nothing in a program without errors. -/
theorem Check.findings_eq_nil (h : Diagnostic.errors (analyze p file {} minSeverity) = [])
    (check : Check) (hcheck : check ∈ [.startState, .undefinedStates, .arity]) :
    check.findings p = [] := by
  rw [List.eq_nil_iff_forall_not_mem]
  intro f hf
  have herror := Check.isError_of_mem hcheck hf file
  have hmem : f ∈ p.findings := List.mem_flatMap.2 ⟨check, by cases check <;> decide, hf⟩
  have hreport : f.diagnostic file ∈ Diagnostic.errors (analyze p file {} minSeverity) := by
    rw [analyze_eq_filter]
    refine List.mem_filter.2 ⟨List.mem_filter.2 ⟨List.mem_map_of_mem hmem, ?_⟩, herror⟩
    exact Collector.keeps_of_isError herror
  rw [h] at hreport
  cases hreport

end Errors

/-- What the checks establish about a program without errors. -/
structure Program.IsClean (p : Program) : Prop where
  start : p.states.contains p.start = true
  targets : ∀ s t, (s, t) ∈ p.transitions → p.states.contains t.next = true
  tapes : (p.tapes.length : Int) = p.arity
  heads : (p.heads.length : Int) = p.arity
  vectors : ∀ s t, (s, t) ∈ p.transitions →
    (t.write.length : Int) = p.arity ∧ (t.move.length : Int) = p.arity

namespace Program

variable {p : Program} {file : Option String} {minSeverity : Severity}

theorem contains_start_of_startFindings (h : p.startFindings = []) :
    p.states.contains p.start = true := by
  unfold startFindings at h
  split at h
  · cases h
  · split at h
    · next hstart => exact hstart
    · cases h

theorem contains_next_of_targetFindings (h : p.targetFindings = []) {s : State} {t : Transition}
    (ht : (s, t) ∈ p.transitions) : p.states.contains t.next = true := by
  have hnone := List.filterMap_eq_nil_iff.1 h (s, t) ht
  dsimp only at hnone
  split at hnone
  · next hnext => exact hnext
  · cases hnone

theorem counts_of_arityFindings (h : p.arityFindings = []) :
    (p.tapes.length : Int) = p.arity ∧ (p.heads.length : Int) = p.arity ∧
      ∀ s t, (s, t) ∈ p.transitions →
        (t.write.length : Int) = p.arity ∧ (t.move.length : Int) = p.arity := by
  simp only [arityFindings, List.append_eq_nil_iff, ite_eq_left_iff, List.cons_ne_nil, imp_false,
    not_not] at h
  obtain ⟨⟨⟨-, htapes⟩, hheads⟩, hvectors⟩ := h
  refine ⟨htapes, hheads, fun s t ht => ?_⟩
  have hnone := List.filterMap_eq_nil_iff.1 hvectors (s, t) ht
  dsimp only at hnone
  split at hnone
  · next hlengths => exact hlengths.2
  · cases hnone

/-- **A program without errors is clean.** -/
theorem isClean_of_errors (h : Diagnostic.errors (analyze p file {} minSeverity) = []) :
    p.IsClean := by
  have hstart : p.startFindings = [] := Check.findings_eq_nil h .startState (by decide)
  have htargets : p.targetFindings = [] := Check.findings_eq_nil h .undefinedStates (by decide)
  have harity : p.arityFindings = [] := Check.findings_eq_nil h .arity (by decide)
  obtain ⟨htapes, hheads, hvectors⟩ := counts_of_arityFindings harity
  exact ⟨contains_start_of_startFindings hstart,
    fun _ _ ht => contains_next_of_targetFindings htargets ht, htapes, hheads, hvectors⟩

/-- A declared name has a state. -/
theorem exists_state_of_contains {name : String} (h : p.states.contains name = true) :
    ∃ s, p.state? name = some s := by
  obtain ⟨⟨key, s⟩, he, hkey⟩ := List.any_eq_true.1 h
  obtain rfl : key = name := by simpa using hkey
  exact ⟨s, Table.find?_eq_some_iff.2 he⟩

/-- What stands in the tables is checked. -/
theorem mem_transitions {e : String × State} (he : e ∈ p.states.entries)
    {e' : List Symbol × Transition} (he' : e' ∈ e.2.transitions.entries) :
    (e.2, e'.2) ∈ p.transitions := by
  refine List.mem_flatMap.2 ⟨e.2, List.mem_map_of_mem he, ?_⟩
  exact List.mem_map.2 ⟨e'.2, List.mem_map_of_mem he', rfl⟩

theorem IsClean.sized (h : p.IsClean) : p.Sized p.tapes.length := by
  intro e he e' he'
  obtain ⟨hwrite, hmove⟩ := h.vectors _ _ (mem_transitions he he')
  have htapes := h.tapes
  omega

/-- A transition that is found leads to a declared state. -/
theorem IsClean.exists_target (h : p.IsClean) {name : String} {read : List Symbol} {t : Transition}
    (ht : p.transition? name read = some t) : ∃ s, p.state? t.next = some s := by
  obtain ⟨s, hs, ht⟩ := transition?_eq_some_iff.1 ht
  exact exists_state_of_contains (h.targets _ _ (mem_transitions hs ht))

end Program

/-! ### Runs -/

namespace Machine

variable {m m' : Machine} {o : Outcome} {p : Program}

/-- Why a machine in the state `s` has its status: it runs if the state has transitions, and it has
stopped because the state has none or because none of them fits, which is an error to a strict
machine. -/
def Explains (s : State) (m : Machine) : Prop :=
  match m.status with
  | .running => s.isHalting = false
  | .halted => s.isHalting = true ∨ m.mode = .normal ∧ s.lookup m.currentSymbols = none
  | .errored cause =>
    m.mode = .strict ∧ cause = ⟨m.state, m.currentSymbols⟩ ∧ s.lookup m.currentSymbols = none

/-- A machine that runs the program `p` as its checks promise. -/
structure OnCourse (p : Program) (m : Machine) : Prop where
  program : m.program = p
  tapes : (m.tapes.length : Int) = p.arity
  heads : (m.heads.length : Int) = p.arity
  state : ∃ s, p.state? m.state = some s ∧ Explains s m

theorem explains_of_entryStatus {s : State} (hs : m.program.state? m.state = some s)
    (h : m.status = entryStatus m.program m.state) : Explains s m := by
  have hhalts : m.program.haltsIn m.state = s.isHalting := by rw [Program.haltsIn, hs]
  rw [entryStatus, hhalts] at h
  unfold Explains
  split at h
  · next hhalting => rw [h]; exact .inl hhalting
  · next hhalting => rw [h]; exact Bool.eq_false_of_not_eq_true hhalting

theorem onCourse_start (hp : p.IsClean) (mode : Mode) (config : TapeLang.Config) :
    OnCourse p (start p mode config) := by
  obtain ⟨s, hs⟩ := Program.exists_state_of_contains hp.start
  refine ⟨rfl, ?_, hp.heads, s, hs, explains_of_entryStatus hs rfl⟩
  rw [start, List.length_map]
  exact hp.tapes

/-- A machine that sticks still has the same symbols under its heads. -/
theorem currentSymbols_stuck (hm : m.Sound) : m.stuck.currentSymbols = m.currentSymbols := by
  have hpeek : ∀ ts : List Tape, List.zipWith Tape.peek ts m.heads =
      List.zipWith (fun f x => f x) (ts.map Tape.peek) m.heads := by
    intro ts
    rw [List.zipWith_map_left]
  show List.zipWith Tape.peek (reachCells m.tapes m.heads) m.heads =
    List.zipWith Tape.peek m.tapes m.heads
  rw [hpeek, hpeek, map_peek_reachCells hm.blank]

theorem explains_stuck (hm : m.Sound) {s : State} (hs : m.program.state? m.state = some s)
    (fits : m.program.transition? m.state m.currentSymbols = none) : Explains s m.stuck := by
  have hlookup : s.lookup m.stuck.currentSymbols = none := by
    rw [currentSymbols_stuck hm]
    simpa [Program.transition?, hs] using fits
  have hstatus : m.stuck.status = m.stuckStatus m.stuck.currentSymbols := by
    rw [currentSymbols_stuck hm]
    rfl
  unfold Explains
  rw [hstatus, stuckStatus]
  cases hmode : m.mode with
  | normal => exact .inr ⟨hmode, hlookup⟩
  | strict => exact ⟨hmode, rfl, hlookup⟩

/-- No step adds or removes a tape. -/
theorem Sound.length_tapes (hm : m.Sound) (h : m.Takes o m') :
    m'.tapes.length = m.tapes.length := by
  cases h with
  | rests => rfl
  | sticks => exact (single_of_map_blank_eq (map_blank_reachCells m.tapes m.heads) hm.blank).1
  | fires running fits =>
    have hwrite := (hm.sized_of_transition? fits).1
    exact (single_of_map_blank_eq (map_blank_writeCells hm.heads hwrite) hm.blank).1

/-- **Every step stays on course.** -/
theorem OnCourse.takes (hp : p.IsClean) (hm : m.Sound) (h : OnCourse p m) (ht : m.Takes o m') :
    OnCourse p m' := by
  obtain ⟨hsound, hprogram⟩ := hm.takes ht
  have htapes : (m'.tapes.length : Int) = p.arity := by
    rw [hm.length_tapes ht]
    exact h.tapes
  refine ⟨hprogram.trans h.program, htapes, by rw [hsound.heads]; exact htapes, ?_⟩
  cases ht with
  | rests => exact h.state
  | sticks running fits =>
    obtain ⟨s, hs, -⟩ := h.state
    exact ⟨s, hs, explains_stuck hm (h.program ▸ hs) fits⟩
  | @fires t running fits =>
    rw [h.program] at fits
    obtain ⟨s, hs⟩ := hp.exists_target fits
    refine ⟨s, hs, explains_of_entryStatus ?_ rfl⟩
    show m.program.state? t.next = some s
    rw [h.program]
    exact hs

end Machine

/-- **A program without errors runs as its checks promise.** Take any program whose blank symbol is one
character and in which the checks report no error. No step of a machine breaks down, the numbers of tapes
and of heads stay the arity, and the machine stays in declared states; it stops only in a state without
transitions, or where no transition fits the symbols under the heads. -/
theorem clean_program_runs (p : Program) (hblank : p.blank.length = 1) (file : Option String)
    (minSeverity : Severity) (hclean : Diagnostic.errors (analyze p file {} minSeverity) = [])
    (mode : Mode) (config : Config) (n : Nat) :
    (∃ o, (Machine.advance^[n] (Machine.start p mode config)).step.1 = .ok o) ∧
      Machine.OnCourse p (Machine.advance^[n] (Machine.start p mode config)) := by
  have hp := Program.isClean_of_errors hclean
  have hcounts : p.heads.length = p.tapes.length :=
    Int.natCast_inj.1 (hp.heads.trans hp.tapes.symm)
  have hsound := Machine.sound_start hblank hcounts hp.sized mode config
  exact hsound.advance_induction (P := fun _ => Machine.OnCourse p)
    (Machine.onCourse_start hp mode config) (fun hm h ht => h.takes hp hm ht) n

/-- Two tapes, of which the machine leaves one to the left and the other to the right. -/
def crossing : Program where
  name := none
  blank := "."
  arity := 2
  tapes := [["a"], ["b"]]
  heads := [0, 1]
  states := .ofList
    [ ("go", ⟨"go", .ofList [(["a", "."], ⟨["a", "."], ["x", "y"], [.left, .right], "turn", {}⟩)], {}⟩),
      ("turn",
        ⟨"turn", .ofList [([".", "."], ⟨[".", "."], [".", "z"], [.left, .left], "turn", {}⟩)], {}⟩) ]
  start := "go"

/-- A strict machine makes two steps and stops with an error. -/
theorem clean_program_runs_crossing :
    crossing.blank.length = 1 ∧ Diagnostic.errors (analyze crossing none {} .information) = [] ∧
      (Machine.advance^[3] (Machine.start crossing .strict {})).status =
        .errored ⟨"turn", [".", "y"]⟩ ∧
      (∃ o, (Machine.advance^[3] (Machine.start crossing .strict {})).step.1 = .ok o) ∧
      Machine.OnCourse crossing (Machine.advance^[3] (Machine.start crossing .strict {})) := by
  have hblank : crossing.blank.length = 1 := by decide
  have hclean : Diagnostic.errors (analyze crossing none {} .information) = [] := by rfl
  exact ⟨hblank, hclean, by rfl, clean_program_runs crossing hblank none .information hclean .strict {} 3⟩

end TapeLang
