import Mathlib
import TapeLang.Compilation
import TapeLang.Proofs.CleanRun
import TapeLang.Proofs.Textbook

/-!
# Other input and the analysis

A program is analysed on its own tapes, and may then be run on others. The heads stay where they are, so
a head can come to stand behind the end of a shorter row. That is the only error that other input can
bring into a program without errors.

* `errors_analyze`: the errors are the findings of four of the checks;
* `Program.errors_analyze_withTapes`: on other input only the check of the heads can find errors;
* `Program.WellFormed.mem_headFindings_withTapes`: what it finds there;
* `input_can_only_misplace_heads`: the errors in a program after other input has been put on its tapes.
-/

namespace TapeLang

/-! ### The errors among the diagnostics -/

section Errors

variable {p : Program} {file : Option String}

/-- What the check of the heads finds: the heads that stand before or behind their tapes. -/
theorem Program.mem_headFindings {f : Finding} :
    f ∈ p.headFindings ↔ ∃ i head row, p.heads[i]? = some head ∧ p.tapes[i]? = some row ∧
      ¬(0 ≤ head ∧ head ≤ row.length) ∧ f = .invalidHead i head row.length := by
  simp only [headFindings, List.mem_filterMap, List.mem_zipIdx_iff_getElem?, Prod.exists]
  constructor
  · rintro ⟨head, row, i, hi, heq⟩
    obtain ⟨hhead, hrow⟩ := List.getElem?_zip_eq_some.1 hi
    split at heq
    · cases heq
    · next hplace =>
      cases heq
      exact ⟨i, head, row, hhead, hrow, hplace, rfl⟩
  · rintro ⟨i, head, row, hhead, hrow, hplace, rfl⟩
    exact ⟨head, row, i, List.getElem?_zip_eq_some.2 ⟨hhead, hrow⟩, if_neg hplace⟩

/-- The errors among what a check reports. -/
theorem Check.filter_isError (check : Check) (p : Program) (file : Option String) :
    ((check.findings p).map (Finding.diagnostic file)).filter Diagnostic.isError =
      if check.reportsErrors then (check.findings p).map (Finding.diagnostic file) else [] := by
  have hall : ∀ d ∈ (check.findings p).map (Finding.diagnostic file),
      d.isError = check.reportsErrors := by
    intro d hd
    obtain ⟨f, hf, rfl⟩ := List.mem_map.1 hd
    rw [f.isError_diagnostic, Check.check_of_mem hf]
  split
  · next h => exact List.filter_eq_self.2 fun d hd => (hall d hd).trans h
  · next h =>
    refine List.filter_eq_nil_iff.2 fun d hd => ?_
    rw [hall d hd]
    exact h

/-- **The errors in a program are what four of the checks find,** in the order of the checks. -/
theorem errors_analyze (p : Program) (file : Option String) (minSeverity : Severity) :
    Diagnostic.errors (analyze p file {} minSeverity) =
      (p.startFindings ++ p.targetFindings ++ p.headFindings ++ p.arityFindings).map
        (Finding.diagnostic file) := by
  have hkept : ∀ d : Diagnostic,
      (d.isError && Collector.keeps { minSeverity := minSeverity } d) = d.isError := by
    intro d
    cases h : d.isError with
    | false => rfl
    | true => rw [Collector.keeps_of_isError h]; rfl
  have hfindings : Diagnostic.errors (analyze p file {} minSeverity) =
      Check.all.flatMap fun check =>
        ((check.findings p).map (Finding.diagnostic file)).filter Diagnostic.isError := by
    rw [analyze_eq_filter, Diagnostic.errors, List.filter_filter, List.filter_congr fun d _ => hkept d,
      Program.findings, List.map_flatMap, List.filter_flatMap]
  rw [hfindings, funext fun check => Check.filter_isError check p file]
  simp [Check.all, Check.reportsErrors, Check.findings]

end Errors

/-! ### Other input -/

namespace Program

variable {p q : Program} {rows : List (List Symbol)}

/-- The program takes input with a row for each tape and keeps everything else. -/
theorem withTapes_eq_ok (h : p.withTapes rows = .ok q) :
    (rows.length : Int) = p.arity ∧ q = { p with tapes := rows } := by
  unfold withTapes at h
  split at h
  · cases h
  · next hlength =>
    split at h
    · cases h
    · cases h
      exact ⟨not_not.1 hlength, rfl⟩

theorem arityFindings_withTapes (hp : p.arityFindings = []) (h : p.withTapes rows = .ok q) :
    q.arityFindings = [] := by
  obtain ⟨hlength, rfl⟩ := withTapes_eq_ok h
  simp only [arityFindings, List.append_eq_nil_iff] at hp ⊢
  refine ⟨⟨⟨hp.1.1.1, ?_⟩, hp.1.2⟩, hp.2⟩
  exact if_pos hlength

/-- After other input has been put on the tapes of a program without errors, the errors are what the
check of the heads finds. -/
theorem errors_analyze_withTapes {file path : Option String} {least minSeverity : Severity}
    (hclean : Diagnostic.errors (analyze p file {} least) = []) (h : p.withTapes rows = .ok q) :
    Diagnostic.errors (analyze q path {} minSeverity) =
      q.headFindings.map (Finding.diagnostic path) := by
  have hstart : p.startFindings = [] := Check.findings_eq_nil hclean .startState (by decide)
  have htargets : p.targetFindings = [] := Check.findings_eq_nil hclean .undefinedStates (by decide)
  have harity : p.arityFindings = [] := Check.findings_eq_nil hclean .arity (by decide)
  rw [errors_analyze, arityFindings_withTapes harity h]
  obtain ⟨-, rfl⟩ := withTapes_eq_ok h
  -- neither of the first two checks looks at the tapes
  have hstart' : startFindings { p with tapes := rows } = [] := hstart
  have htargets' : targetFindings { p with tapes := rows } = [] := htargets
  rw [hstart', htargets', List.append_nil, List.nil_append, List.nil_append]

namespace WellFormed

/-- On other input the check of the heads finds the heads behind the ends of their rows. -/
theorem mem_headFindings_withTapes (hp : p.WellFormed) (h : p.withTapes rows = .ok q) {f : Finding} :
    f ∈ q.headFindings ↔ ∃ i head row, p.heads[i]? = some head ∧ rows[i]? = some row ∧
      row.length < head ∧ f = .invalidHead i head row.length := by
  obtain ⟨-, rfl⟩ := withTapes_eq_ok h
  rw [mem_headFindings]
  constructor
  · rintro ⟨i, head, row, hhead, hrow, hplace, rfl⟩
    have hnonneg : 0 ≤ head := hp.heads_nonneg head (List.mem_of_getElem? hhead)
    exact ⟨i, head, row, hhead, hrow, by omega, rfl⟩
  · rintro ⟨i, head, row, hhead, hrow, hbehind, rfl⟩
    exact ⟨i, head, row, hhead, hrow, by omega, rfl⟩

theorem headFindings_withTapes_eq_nil_iff (hp : p.WellFormed) (h : p.withTapes rows = .ok q) :
    q.headFindings = [] ↔ List.Forall₂ (fun head row => head ≤ row.length) p.heads rows := by
  have hlength : p.heads.length = rows.length := by
    have hrows := (withTapes_eq_ok h).1
    have hheads := hp.heads_length
    omega
  rw [List.eq_nil_iff_forall_not_mem, List.forall₂_iff_get]
  simp only [hp.mem_headFindings_withTapes h]
  constructor
  · intro hnone
    refine ⟨hlength, fun i hhead hrow => ?_⟩
    by_contra hbehind
    refine hnone _ ⟨i, _, _, List.getElem?_eq_getElem hhead, List.getElem?_eq_getElem hrow, ?_, rfl⟩
    simpa using hbehind
  · rintro ⟨-, hall⟩ f ⟨i, head, row, hhead, hrow, hbehind, -⟩
    obtain ⟨hi, rfl⟩ := List.getElem?_eq_some_iff.1 hhead
    obtain ⟨hi', rfl⟩ := List.getElem?_eq_some_iff.1 hrow
    have := hall i hi hi'
    simp only [List.get_eq_getElem] at this
    omega

end WellFormed

end Program

/-- A text that compiles gives a well-formed program, and its diagnostics are those of the analysis. -/
theorem compile_eq_ok {text : List Char} {file : String} {suppress : List String}
    {log : List LogRecord} {c : Compiled} (h : compile text file suppress = (log, .ok c)) :
    c.program.WellFormed ∧ c.diagnostics =
      analyze c.program (some file) (Suppressions.load { everywhere := suppress } text) := by
  unfold compile compileProgram at h
  cases hparse : parse text file with
  | error e => simp [hparse] at h
  | ok tree =>
    cases hbuild : build tree with
    | error e => simp [hparse, hbuild] at h
    | ok program =>
      simp only [hparse, hbuild, Prod.mk.injEq, Except.ok.injEq] at h
      obtain ⟨-, rfl⟩ := h
      exact ⟨wellFormed_of_build hparse hbuild, rfl⟩

/-- **Other input can bring in an error of one kind only: a head behind the end of its new row.** A text
without suppressions compiles to a program without errors. On other input the errors are the misplaced
heads, each with its number, its position and the length of its row; so there are none exactly if no row is
shorter than the position of its head. -/
theorem input_can_only_misplace_heads (text : List Char) (file : String) (log : List LogRecord)
    (c : Compiled) (hcompile : compile text file = (log, .ok c))
    (hplain : Suppressions.load {} text = {}) (hclean : Diagnostic.errors c.diagnostics = [])
    (rows : List (List Symbol)) (q : Program) (hrows : c.program.withTapes rows = .ok q)
    (path : Option String) (minSeverity : Severity) :
    (∀ d, d ∈ Diagnostic.errors (analyze q path {} minSeverity) ↔
        ∃ i head row, c.program.heads[i]? = some head ∧ rows[i]? = some row ∧
          row.length < head ∧ d = (Finding.invalidHead i head row.length).diagnostic path) ∧
      (Diagnostic.errors (analyze q path {} minSeverity) = [] ↔
        List.Forall₂ (fun head row => head ≤ row.length) c.program.heads rows) := by
  obtain ⟨hwell, hdiagnostics⟩ := compile_eq_ok hcompile
  rw [hdiagnostics, hplain] at hclean
  rw [Program.errors_analyze_withTapes hclean hrows]
  refine ⟨fun d => ?_, ?_⟩
  · simp only [List.mem_map, hwell.mem_headFindings_withTapes hrows]
    constructor
    · rintro ⟨f, ⟨i, head, row, hhead, hrow, hbehind, rfl⟩, rfl⟩
      exact ⟨i, head, row, hhead, hrow, hbehind, rfl⟩
    · rintro ⟨i, head, row, hhead, hrow, hbehind, rfl⟩
      exact ⟨_, ⟨i, head, row, hhead, hrow, hbehind, rfl⟩, rfl⟩
  · rw [List.map_eq_nil_iff]
    exact hwell.headFindings_withTapes_eq_nil_iff hrows

/-- Two heads, each on the first blank cell of its tape. -/
def twoHeads : List Char :=
  "tapes:\n  [a, b]\n  [c]\nheads: [2, 1]\nrules:\n  s:\n    [_, _], [L, S], t\n  t:\n".toList

/-- On two new rows the first head is misplaced, and that is all. -/
theorem input_can_only_misplace_heads_two_tapes :
    ∃ log c q, compile twoHeads "m" = (log, .ok c) ∧ Suppressions.load {} twoHeads = {} ∧
      Diagnostic.errors c.diagnostics = [] ∧
      c.program.withTapes [["a"], ["b", "b"]] = .ok q ∧
      (Finding.invalidHead 0 2 1).diagnostic none ∈ Diagnostic.errors (analyze q) ∧
      ∀ d ∈ Diagnostic.errors (analyze q), d.id = "invalid-head" := by
  have heval : ((compile twoHeads "m").2.toOption.bind fun c =>
      (c.program.withTapes [["a"], ["b", "b"]]).toOption.map fun q =>
        (q.heads, (Diagnostic.errors c.diagnostics).isEmpty)) = some ([2, 1], true) := by decide +kernel
  simp only [Option.bind_eq_some_iff, Option.map_eq_some_iff, toOption_eq_some_iff,
    Prod.mk.injEq, List.isEmpty_iff] at heval
  obtain ⟨c, hc, q, hq, hheads, hclean⟩ := heval
  have hcompile : compile twoHeads "m" = ((compile twoHeads "m").1, .ok c) := Prod.ext rfl hc
  have hplain : Suppressions.load {} twoHeads = {} := by decide +kernel
  have hresult := (input_can_only_misplace_heads twoHeads "m" _ c hcompile hplain hclean _ q hq none
    .information).1
  rw [(Program.withTapes_eq_ok hq).2] at hheads
  refine ⟨_, c, q, hcompile, hplain, hclean, hq, ?_, fun d hd => ?_⟩
  · exact (hresult _).2 ⟨0, 2, ["a"], by rw [hheads]; rfl, rfl, by decide, rfl⟩
  · obtain ⟨i, head, row, -, -, -, rfl⟩ := (hresult d).1 hd
    rfl

/-- The head stands on the first blank cell. -/
def headBehind : List Char :=
  "tape: a, a\nhead: 2\nrules:\n  s:\n    _, L, t\n    a, L, t\n  t:\n".toList

/-- A text that compiles without any diagnostic takes a row that is too short for its head. -/
theorem short_input_misplaces_head :
    (compile headBehind "m").2.toOption.map (fun c => c.diagnostics.map Diagnostic.id) = some [] ∧
      Suppressions.load {} headBehind = {} ∧
      ((compile headBehind "m").2.toOption.bind fun c =>
        (c.program.withTapes [["a"]]).toOption.map fun q =>
          (Diagnostic.errors (analyze q)).map Diagnostic.id) = some ["invalid-head"] := by
  decide +kernel

end TapeLang
