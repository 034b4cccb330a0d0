import Mathlib
import TapeLang.Analysis.Check
import TapeLang.Proofs.Build

/-!
# What the static checks report

* `analyze_eq_filter`: the diagnostics are those of all findings, filtered;
* `Finding.check`, `Check.id`: the check that makes a finding, and the identifier of what a check reports;
* `Check.filter_id_analyze`: the diagnostics with that identifier are what the check finds;
* `Program.WellFormed.startFindings`, `Program.WellFormed.arityFindings`: two checks find nothing in a
  program that has been built.
-/

namespace TapeLang

namespace Collector

/-- Whether a collector keeps a diagnostic. -/
def keeps (c : Collector) (d : Diagnostic) : Bool :=
  !(decide (c.minSeverity.rank < d.severity.rank) || c.suppressions.covers d)

theorem report_eq (c : Collector) (d : Diagnostic) :
    c.report d = if c.keeps d then { c with found := c.found.push d } else c := by
  unfold report keeps
  by_cases h : c.minSeverity.rank < d.severity.rank
  · simp [h]
  · by_cases hs : c.suppressions.covers d = true
    · simp [h, hs]
    · simp [h, hs]

/-- Reporting adds what the collector keeps, in order, and does not change what it keeps. -/
theorem reportAll_eq (c : Collector) (ds : List Diagnostic) :
    c.reportAll ds = { c with found := c.found ++ (ds.filter c.keeps).toArray } := by
  induction ds generalizing c with
  | nil => simp [reportAll]
  | cons d ds ih =>
    have hcons : c.reportAll (d :: ds) = (c.report d).reportAll ds := rfl
    rw [hcons, ih, report_eq]
    split
    · next h =>
      have hkeeps : keeps { c with found := c.found.push d } = c.keeps := rfl
      rw [hkeeps, List.filter_cons_of_pos h]
      simp
    · next h => rw [List.filter_cons_of_neg (by simpa using h)]

end Collector

/-- Everything that the checks find, in the order of the checks. -/
def Program.findings (p : Program) : List Finding := Check.all.flatMap fun check => check.findings p

theorem Check.run_eq (checks : List Check) (p : Program) (file : Option String) (c : Collector) :
    Check.run checks p file c =
      c.reportAll ((checks.flatMap fun check => check.findings p).map (Finding.diagnostic file)) := by
  induction checks generalizing c with
  | nil => rfl
  | cons check checks ih =>
    have hcons : Check.run (check :: checks) p file c =
        Check.run checks p file (c.reportAll ((check.findings p).map (Finding.diagnostic file))) := rfl
    rw [hcons, ih, List.flatMap_cons, List.map_append]
    unfold Collector.reportAll
    rw [List.foldl_append]

/-- **The diagnostics are those of the findings, without the silenced and the less serious ones.** -/
theorem analyze_eq_filter (p : Program) (file : Option String) (s : Suppressions)
    (minSeverity : Severity) :
    analyze p file s minSeverity =
      (p.findings.map (Finding.diagnostic file)).filter
        (Collector.keeps { suppressions := s, minSeverity := minSeverity }) := by
  unfold analyze Program.findings
  rw [Check.run_eq, Collector.reportAll_eq]
  simp [Collector.diagnostics]

/-- A collector without suppressions that keeps every severity keeps everything. -/
theorem Collector.keeps_default (d : Diagnostic) : Collector.keeps {} d = true := by
  have hcovers : Suppressions.covers {} d = false := by
    unfold Suppressions.covers
    cases d.location <;> rfl
  have hrank : ¬Severity.information.rank < d.severity.rank := by cases d.severity <;> decide
  simp [keeps, hcovers, hrank]

theorem analyze_eq_map (p : Program) (file : Option String) :
    analyze p file = p.findings.map (Finding.diagnostic file) := by
  rw [analyze_eq_filter]
  exact List.filter_eq_self.2 fun d _ => Collector.keeps_default d

/-- A check that is made alone reports what it finds. -/
theorem Check.diagnostics_run (check : Check) (p : Program) (file : Option String) :
    (Check.run [check] p file {}).diagnostics = (check.findings p).map (Finding.diagnostic file) := by
  rw [Check.run_eq, Collector.reportAll_eq, List.filter_eq_self.2 fun d _ => Collector.keeps_default d]
  simp [Collector.diagnostics]

theorem mem_findings_of_mem_analyze {p : Program} {file : Option String} {s : Suppressions}
    {minSeverity : Severity} {d : Diagnostic} (h : d ∈ analyze p file s minSeverity) :
    ∃ check : Check, ∃ f ∈ check.findings p, d = f.diagnostic file := by
  rw [analyze_eq_filter] at h
  obtain ⟨f, hf, rfl⟩ := List.mem_map.1 (List.mem_of_mem_filter h)
  obtain ⟨check, -, hf⟩ := List.mem_flatMap.1 hf
  exact ⟨check, f, hf, rfl⟩

/-! ### Where a finding comes from -/

/-- The check that makes a finding. -/
def Finding.check : Finding → Check
  | .noStates | .undeclaredStart _ => .startState
  | .undefinedState _ _ => .undefinedStates
  | .unreachableState _ _ _ => .reachability
  | .invalidHead _ _ _ => .heads
  | .lowArity _ | .tapeCount _ _ | .headCount _ _ | .vectorLengths _ _ _ => .arity
  | .uncoveredSymbol _ _ => .symbolCoverage
  | .startNoMatch _ _ _ => .startMatch

/-- The identifier of what a check reports. -/
def Check.id : Check → String
  | .startState => "missing-start-state"
  | .undefinedStates => "undefined-state"
  | .reachability => "unreachable-state"
  | .heads => "invalid-head"
  | .arity => "arity-mismatch"
  | .symbolCoverage => "uncovered-symbol"
  | .startMatch => "start-no-match"

/-- Whether the findings of a check are errors. -/
def Check.reportsErrors : Check → Bool
  | .startState | .undefinedStates | .heads | .arity => true
  | .reachability | .symbolCoverage | .startMatch => false

theorem Finding.id_diagnostic (f : Finding) (file : Option String) :
    (f.diagnostic file).id = f.check.id := by
  cases f <;> rfl

theorem Finding.isError_diagnostic (f : Finding) (file : Option String) :
    (f.diagnostic file).isError = f.check.reportsErrors := by
  cases f <;> rfl

namespace Check

theorem id_injective : Function.Injective id := by
  intro check other
  cases check <;> cases other <;> decide

/-- **No check makes the findings of another.** -/
theorem check_of_mem {p : Program} {check : Check} {f : Finding} (hf : f ∈ check.findings p) :
    f.check = check := by
  cases check with
  | startState =>
    simp only [findings, Program.startFindings] at hf
    split at hf
    · cases List.mem_singleton.1 hf; rfl
    · split at hf
      · cases hf
      · cases List.mem_singleton.1 hf; rfl
  | undefinedStates =>
    obtain ⟨⟨s, t⟩, -, heq⟩ := List.mem_filterMap.1 hf
    dsimp only at heq
    split at heq
    · cases heq
    · cases heq; rfl
  | reachability =>
    simp only [findings, Program.reachFindings] at hf
    split at hf
    · obtain ⟨⟨name, s⟩, -, heq⟩ := List.mem_filterMap.1 hf
      dsimp only at heq
      split at heq
      · cases heq
      · cases heq; rfl
    · cases hf
  | heads =>
    obtain ⟨⟨⟨head, tape⟩, index⟩, -, heq⟩ := List.mem_filterMap.1 hf
    dsimp only at heq
    split at heq
    · cases heq
    · cases heq; rfl
  | arity =>
    simp only [findings, Program.arityFindings, List.mem_append] at hf
    rcases hf with ((hf | hf) | hf) | hf
    · split at hf
      · cases List.mem_singleton.1 hf; rfl
      · cases hf
    · split at hf
      · cases hf
      · cases List.mem_singleton.1 hf; rfl
    · split at hf
      · cases hf
      · cases List.mem_singleton.1 hf; rfl
    · obtain ⟨⟨s, t⟩, -, heq⟩ := List.mem_filterMap.1 hf
      dsimp only at heq
      split at heq
      · cases heq
      · cases heq; rfl
  | symbolCoverage =>
    obtain ⟨⟨tape, index⟩, -, hf⟩ := List.mem_flatMap.1 hf
    obtain ⟨symbol, -, rfl⟩ := List.mem_map.1 hf
    rfl
  | startMatch =>
    simp only [findings, Program.startMatchFindings] at hf
    split at hf
    · cases hf
    · split at hf
      · cases hf
      · cases List.mem_singleton.1 hf; rfl

/-- What a check reports has its identifier, and no other check reports it. -/
theorem filter_id_findings (check other : Check) (p : Program) (file : Option String) :
    ((other.findings p).map (Finding.diagnostic file)).filter (fun d => d.id = check.id) =
      if other = check then (other.findings p).map (Finding.diagnostic file) else [] := by
  have hid : ∀ d ∈ (other.findings p).map (Finding.diagnostic file), d.id = other.id := by
    intro d hd
    obtain ⟨f, hf, rfl⟩ := List.mem_map.1 hd
    rw [f.id_diagnostic, check_of_mem hf]
  split
  · next h =>
    subst h
    exact List.filter_eq_self.2 fun d hd => decide_eq_true (hid d hd)
  · next h =>
    refine List.filter_eq_nil_iff.2 fun d hd => ?_
    rw [hid d hd, decide_eq_true_iff]
    exact fun heq => h (id_injective heq)

/-- **The diagnostics with the identifier of a check are what it finds,** in the order in which it finds
them. -/
theorem filter_id_analyze (check : Check) (p : Program) (file : Option String) :
    (analyze p file).filter (fun d => d.id = check.id) =
      (check.findings p).map (Finding.diagnostic file) := by
  rw [analyze_eq_map, Program.findings, List.map_flatMap, List.filter_flatMap,
    funext fun other => filter_id_findings check other p file]
  cases check <;> simp [all]

end Check

namespace Program.WellFormed

variable {p : Program}

theorem contains_start (h : p.WellFormed) : p.states.contains p.start = true := by
  obtain ⟨rest, hkeys⟩ := List.head?_eq_some_iff.1 h.start_first
  have hmem : p.start ∈ p.states.keys := by rw [hkeys]; exact List.mem_cons_self
  obtain ⟨e, he, hkey⟩ := List.mem_map.1 hmem
  exact List.any_eq_true.2 ⟨e, he, by simpa using hkey⟩

theorem startFindings (h : p.WellFormed) : p.startFindings = [] := by
  have hne : p.states.isEmpty = false := by
    have hstart := h.contains_start
    unfold Table.contains at hstart
    unfold Table.isEmpty
    cases hes : p.states.entries with
    | nil => simp [hes] at hstart
    | cons e es => rfl
  simp [Program.startFindings, hne, h.contains_start]

/-- The transitions of the program fit its arity. -/
theorem fits_of_mem_transitions (h : p.WellFormed) {s : State} {t : Transition}
    (ht : (s, t) ∈ p.transitions) : t.Fits p.arity.toNat := by
  obtain ⟨s', hs', ht⟩ := List.mem_flatMap.1 ht
  obtain ⟨t', ht', heq⟩ := List.mem_map.1 ht
  cases heq
  obtain ⟨e, he, rfl⟩ := List.mem_map.1 hs'
  obtain ⟨e', he', rfl⟩ := List.mem_map.1 ht'
  exact (h.states e he).2.fits e' he'

theorem arityFindings (h : p.WellFormed) : p.arityFindings = [] := by
  have hpos := h.arity_pos
  have hlow : ¬p.arity < 1 := by omega
  simp only [Program.arityFindings, hlow, h.tapes_length, h.heads_length, if_false, if_true,
    List.nil_append]
  rw [List.filterMap_eq_nil_iff]
  rintro ⟨s, t⟩ ht
  have hfits := h.fits_of_mem_transitions ht
  refine if_pos ⟨?_, ?_, ?_⟩
  · rw [hfits.read_length]; omega
  · rw [hfits.write_length]; omega
  · rw [hfits.move_length]; omega

/-- The checks of the start state and of the arity report nothing. -/
theorem id_ne_of_mem_analyze (h : p.WellFormed) {file : Option String} {s : Suppressions}
    {minSeverity : Severity} {d : Diagnostic} (hd : d ∈ analyze p file s minSeverity) :
    d.id ≠ "missing-start-state" ∧ d.id ≠ "arity-mismatch" := by
  obtain ⟨check, f, hf, rfl⟩ := mem_findings_of_mem_analyze hd
  rw [f.id_diagnostic, Check.check_of_mem hf]
  -- two checks find nothing, and the others report under other names
  cases check with
  | startState =>
    rw [Check.findings, h.startFindings] at hf
    cases hf
  | arity =>
    rw [Check.findings, h.arityFindings] at hf
    cases hf
  | undefinedStates | reachability | heads | symbolCoverage | startMatch => decide

end Program.WellFormed

end TapeLang
