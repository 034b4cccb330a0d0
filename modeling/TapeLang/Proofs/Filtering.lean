import Mathlib
import TapeLang.Proofs.Analysis

/-!
# Severities and suppressions only filter

The checks are made one after the other on one collector, which drops what is silenced or not serious enough.
A check that reports each finding as soon as it comes to it, in the middle of its loops, hands its collector
on from one report to the next. What it finds later does not depend on what has been dropped.

* `Check.report`: the checks as procedures that report as they go;
* `Reports`: a procedure that reports given findings, whatever the collector holds and drops, with one lemma
  for each way of putting procedures together;
* `Program.reports_checkRow`: the loop that remembers which symbols it has reported;
* `Check.reports_report`: each check reports what it finds;
* `filtering_is_exact`: the analysis with a filter is the filtered analysis.
-/

namespace TapeLang

/-! ### Checks that report as they go -/

/-- The collector after a finding has been reported. -/
def Collector.note (c : Collector) (file : Option String) (f : Finding) : Collector :=
  c.report (f.diagnostic file)

namespace Program

variable (p : Program) (file : Option String)

/-- Report a start state that is not declared. -/
def checkStart (c : Collector) : Collector :=
  if p.states.isEmpty then c.note file .noStates
  else if p.states.contains p.start then c
  else c.note file (.undeclaredStart p.start)

/-- Report the transitions that lead to no declared state. -/
def checkTargets (c : Collector) : Collector :=
  p.transitions.foldl (fun c (s, t) =>
    if p.states.contains t.next then c else c.note file (.undefinedState s.name t)) c

/-- Report the states that cannot be reached; nothing is done if the start state is not declared. -/
def checkReachability (c : Collector) : Collector :=
  if p.states.contains p.start then
    p.states.entries.foldl (fun c (name, s) =>
      if name ∈ p.reachable then c else c.note file (.unreachableState name p.start s.loc)) c
  else c

/-- Report the heads that start neither on their tapes nor right behind them. -/
def checkHeads (c : Collector) : Collector :=
  (p.heads.zip p.tapes).zipIdx.foldl (fun c ((head, tape), index) =>
    if 0 ≤ head ∧ head ≤ tape.length then c else c.note file (.invalidHead index head tape.length)) c

/-- Report numbers and lengths that are not the arity. -/
def checkArity (c : Collector) : Collector :=
  let c := if p.arity < 1 then c.note file (.lowArity p.arity) else c
  let c := if (p.tapes.length : Int) = p.arity then c else c.note file (.tapeCount p.tapes.length p.arity)
  let c := if (p.heads.length : Int) = p.arity then c else c.note file (.headCount p.heads.length p.arity)
  p.transitions.foldl (fun c (s, t) =>
    if (t.read.length : Int) = p.arity ∧ (t.write.length : Int) = p.arity ∧
        (t.move.length : Int) = p.arity then c
    else c.note file (.vectorLengths s.name t p.arity)) c

/-- Report the symbols of a row that are neither blank nor readable, apart from those that have been reported
before. -/
def checkRow (index : Nat) (readable : List Symbol) :
    List Symbol → List Symbol → Collector → Collector
  | [], _, c => c
  | s :: row, reported, c =>
    if s = p.blank ∨ s ∈ readable ∨ s ∈ reported then checkRow index readable row reported c
    else checkRow index readable row (s :: reported) (c.note file (.uncoveredSymbol index s))

/-- Report the symbols of the tapes that no transition reads. -/
def checkCoverage (c : Collector) : Collector :=
  p.tapes.zipIdx.foldl (fun c (tape, index) =>
    p.checkRow file index (p.readSymbols index) tape [] c) c

/-- Report that nothing matches what a machine reads first. -/
def checkStartMatch (c : Collector) : Collector :=
  match p.state? p.start with
  | none => c
  | some s =>
    if s.isHalting ∨ (s.lookup p.initialRead).isSome then c
    else c.note file (.startNoMatch s.name s.loc p.initialRead)

end Program

/-- A check that reports to a collector as it goes. -/
def Check.report (p : Program) (file : Option String) : Check → Collector → Collector
  | .startState => p.checkStart file
  | .undefinedStates => p.checkTargets file
  | .reachability => p.checkReachability file
  | .heads => p.checkHeads file
  | .arity => p.checkArity file
  | .symbolCoverage => p.checkCoverage file
  | .startMatch => p.checkStartMatch file

/-! ### What a procedure reports -/

/-- The procedure reports the findings in turn and does nothing else, whatever the collector holds and
whatever it drops. -/
def Reports (file : Option String) (step : Collector → Collector) (fs : List Finding) : Prop :=
  ∀ c, step c = c.reportAll (fs.map (Finding.diagnostic file))

namespace Reports

variable {file : Option String} {step next : Collector → Collector} {fs gs : List Finding}

theorem nothing : Reports file (fun c => c) [] := fun _ => rfl

theorem note (f : Finding) : Reports file (fun c => c.note file f) [f] := fun _ => rfl

/-- One procedure after the other. -/
theorem append (hstep : Reports file step fs) (hnext : Reports file next gs) :
    Reports file (fun c => next (step c)) (fs ++ gs) := by
  intro c
  show next (step c) = c.reportAll ((fs ++ gs).map (Finding.diagnostic file))
  rw [hnext, hstep, List.map_append]
  unfold Collector.reportAll
  rw [List.foldl_append]

theorem ite {P : Prop} [Decidable P] (hstep : Reports file step fs) (hnext : Reports file next gs) :
    Reports file (fun c => if P then step c else next c) (if P then fs else gs) := by
  by_cases h : P
  · simpa only [h, if_true] using hstep
  · simpa only [h, if_false] using hnext

/-- A loop reports what its rounds report. -/
theorem foldl {α : Type*} {round : Collector → α → Collector} {found : α → List Finding}
    (h : ∀ a, Reports file (fun c => round c a) (found a)) (items : List α) :
    Reports file (fun c => items.foldl round c) (items.flatMap found) := by
  induction items with
  | nil => exact nothing
  | cons a items ih =>
    rw [List.flatMap_cons]
    exact (h a).append ih

/-- A loop in which each round reports one finding or none. -/
theorem foldl_filterMap {α : Type*} {round : Collector → α → Collector} {found : α → Option Finding}
    (h : ∀ a, Reports file (fun c => round c a) (found a).toList) (items : List α) :
    Reports file (fun c => items.foldl round c) (items.filterMap found) := by
  rw [List.filterMap_eq_flatMap_toList]
  exact foldl h items

/-- A finding that is reported unless a condition holds. -/
theorem noteUnless {P : Prop} [Decidable P] (f : Finding) :
    Reports file (fun c => if P then c else c.note file f) (if P then none else some f).toList := by
  intro c
  by_cases h : P
  · simp only [h, if_true]
    exact nothing c
  · simp only [h, if_false]
    exact note f c

end Reports

/-! ### The checks -/

namespace Program

variable (p : Program) (file : Option String)

theorem reports_checkStart : Reports file (p.checkStart file) p.startFindings :=
  (Reports.note _).ite (Reports.nothing.ite (Reports.note _))

theorem reports_checkTargets : Reports file (p.checkTargets file) p.targetFindings :=
  Reports.foldl_filterMap (fun (_, _) => Reports.noteUnless _) p.transitions

theorem reports_checkReachability : Reports file (p.checkReachability file) p.reachFindings :=
  Reports.ite (Reports.foldl_filterMap (fun (_, _) => Reports.noteUnless _) p.states.entries) Reports.nothing

theorem reports_checkHeads : Reports file (p.checkHeads file) p.headFindings :=
  Reports.foldl_filterMap (fun ((_, _), _) => Reports.noteUnless _) _

theorem reports_checkArity : Reports file (p.checkArity file) p.arityFindings :=
  (((Reports.note _).ite Reports.nothing).append (Reports.nothing.ite (Reports.note _))).append
    (Reports.nothing.ite (Reports.note _)) |>.append
      (Reports.foldl_filterMap (fun (_, _) => Reports.noteUnless _) p.transitions)

/-- The loop over a row reports each symbol at its first occurrence. It remembers only what it has reported,
which makes no difference: a symbol that is blank or readable would not be reported later either. -/
theorem reports_checkRow (index : Nat) (readable row : List Symbol) {reported seen : List Symbol}
    (h : ∀ s, s ≠ p.blank → s ∉ readable → (s ∈ reported ↔ s ∈ seen)) :
    Reports file (p.checkRow file index readable row reported)
      (((distinctSymbols seen row).filter fun s => s ≠ p.blank ∧ s ∉ readable).map
        (.uncoveredSymbol index ·)) := by
  induction row generalizing reported seen with
  | nil => exact Reports.nothing
  | cons s row ih =>
    intro c
    by_cases hskip : s = p.blank ∨ s ∈ readable
    · have hseen : ∀ x, x ≠ p.blank → x ∉ readable → (x ∈ reported ↔ x ∈ s :: seen) := by
        intro x hblank hreadable
        have hne : x ≠ s := by
          rintro rfl
          exact hskip.elim hblank hreadable
        rw [h x hblank hreadable, List.mem_cons, or_iff_right hne]
      have hdrop : ¬(s ≠ p.blank ∧ s ∉ readable) := by tauto
      rw [checkRow, if_pos (hskip.imp_right .inl), distinctSymbols]
      split
      · exact ih h c
      · rw [List.filter_cons_of_neg (by simpa using hdrop)]
        exact ih hseen c
    · obtain ⟨hblank, hreadable⟩ := not_or.1 hskip
      rw [checkRow, distinctSymbols]
      by_cases hs : s ∈ seen
      · rw [if_pos (.inr (.inr ((h s hblank hreadable).2 hs))), if_pos hs]
        exact ih h c
      · have hnew : s ∉ reported := fun hmem => hs ((h s hblank hreadable).1 hmem)
        have hseen : ∀ x, x ≠ p.blank → x ∉ readable → (x ∈ s :: reported ↔ x ∈ s :: seen) := by
          intro x hx hx'
          rw [List.mem_cons, List.mem_cons, h x hx hx']
        rw [if_neg (by tauto), if_neg hs,
          List.filter_cons_of_pos (by simpa using ⟨hblank, hreadable⟩), List.map_cons]
        exact (Reports.note _).append (ih hseen) c

theorem reports_checkCoverage : Reports file (p.checkCoverage file) p.coverageFindings :=
  Reports.foldl (fun (tape, index) => p.reports_checkRow file index (p.readSymbols index) tape
    fun _ _ _ => Iff.rfl) p.tapes.zipIdx

theorem reports_checkStartMatch : Reports file (p.checkStartMatch file) p.startMatchFindings := by
  unfold checkStartMatch startMatchFindings
  cases p.state? p.start with
  | none => exact Reports.nothing
  | some s => exact Reports.nothing.ite (Reports.note _)

end Program

/-- **A check that reports as it goes reports what it finds.** -/
theorem Check.reports_report (p : Program) (file : Option String) (check : Check) :
    Reports file (check.report p file) (check.findings p) := by
  cases check with
  | startState => exact p.reports_checkStart file
  | undefinedStates => exact p.reports_checkTargets file
  | reachability => exact p.reports_checkReachability file
  | heads => exact p.reports_checkHeads file
  | arity => exact p.reports_checkArity file
  | symbolCoverage => exact p.reports_checkCoverage file
  | startMatch => exact p.reports_checkStartMatch file

/-- Making checks in turn is letting each of them report as it goes. -/
theorem Check.foldl_report (p : Program) (file : Option String) (checks : List Check) (c : Collector) :
    checks.foldl (fun (c : Collector) check => check.report p file c) c = Check.run checks p file c := by
  unfold Check.run
  congr 1
  funext c check
  exact check.reports_report p file c

/-! ### The filter -/

theorem Collector.keeps_eq (c : Collector) :
    c.keeps = fun d => decide (d.severity.rank ≤ c.minSeverity.rank) && !c.suppressions.covers d := by
  funext d
  simp only [keeps, Bool.not_or, ← decide_not, Nat.not_lt]

/-- **Severities and suppressions only filter.** Nothing is required of the program. The analysis with
suppressions and a least severity has, in the same order, those diagnostics of the analysis without them
that are serious enough and not silenced, where errors are more serious than warnings and these more than
information. This is so although the checks report as they go: each of them, on any collector, adds those of
the diagnostics that it reports to an empty collector which this one lets through, and changes nothing else. -/
theorem filtering_is_exact (p : Program) (file : Option String) (s : Suppressions) (least : Severity) :
    (Severity.error.rank < Severity.warning.rank ∧ Severity.warning.rank < Severity.information.rank) ∧
      analyze p file s least =
        (analyze p file).filter (fun d => decide (d.severity.rank ≤ least.rank) && !s.covers d) ∧
      analyze p file s least =
        (Check.all.foldl (fun (c : Collector) check => check.report p file c)
          { suppressions := s, minSeverity := least }).diagnostics ∧
      ∀ (check : Check) (c : Collector),
        check.report p file c =
          { c with
            found := c.found ++ ((check.report p file {}).diagnostics.filter fun d =>
              decide (d.severity.rank ≤ c.minSeverity.rank) && !c.suppressions.covers d).toArray } := by
  refine ⟨by decide, ?_, ?_, fun check c => ?_⟩
  · rw [analyze_eq_filter, analyze_eq_map, Collector.keeps_eq]
  · rw [Check.foldl_report]
    rfl
  · have halone : (check.report p file {}).diagnostics =
        (check.findings p).map (Finding.diagnostic file) := by
      rw [← check.diagnostics_run p file, ← Check.foldl_report]
      rfl
    rw [check.reports_report p file c, Collector.reportAll_eq, halone, Collector.keeps_eq]

/-- The start state leads only to a state that is not declared, and no transition leads to `r`. -/
def strayTarget : Program where
  name := none
  blank := "_"
  arity := 1
  tapes := [["a"]]
  heads := [0]
  states := .ofList
    [("q", ⟨"q", .ofList [(["a"], ⟨["a"], ["a"], [.right], "gone", {}⟩)], {}⟩), ("r", ⟨"r", .empty, {}⟩)]
  start := "q"

/-- There is an error and a warning. If only errors are serious enough, the warning is dropped, and if the
error is silenced, the warning is left. -/
theorem filtering_is_exact_warning_dropped :
    (analyze strayTarget).map (fun d => (d.id, d.severity)) =
        [("undefined-state", .error), ("unreachable-state", .warning)] ∧
      (analyze strayTarget none {} .error).map Diagnostic.id = ["undefined-state"] ∧
      (analyze strayTarget none { everywhere := ["undefined-state"] } .warning).map Diagnostic.id =
        ["unreachable-state"] := by
  obtain ⟨-, herrors, -, -⟩ := filtering_is_exact strayTarget none {} .error
  obtain ⟨-, hsilenced, -, -⟩ :=
    filtering_is_exact strayTarget none { everywhere := ["undefined-state"] } .warning
  rw [herrors, hsilenced]
  exact ⟨by decide +kernel, by decide +kernel, by decide +kernel⟩

end TapeLang
