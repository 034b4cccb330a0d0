import Mathlib
import TapeLang.Proofs.Calls
import TapeLang.Proofs.Consistency
import TapeLang.Proofs.StartMatch

/-!
# The check of the symbols on the tapes

The check reports the symbols of the initial tapes that no transition reads. Nothing is required of the
program for this: vectors may be shorter or longer than the number of tapes. If the transitions stand under
what they read, a machine that comes to read such a symbol on its tape finds none, in whatever state it is.

* `Program.Uncovered`: a symbol of a tape that no transition reads there;
* `Program.uncoveredPairs`: the tapes and symbols that the check finds, with `Program.mem_uncoveredPairs` and
  `Program.pairwise_uncoveredPairs` on which they are and in what order;
* `Machine.Reached.program_eq`: no call changes the program of a machine, also if it breaks down;
* `Program.KeyedByRead`, `Program.keyedByRead_of_build`: transitions that stand under what they read;
* `Program.transition?_eq_none_of_uncovered`, `Machine.step_of_unfit_read`: reading such a symbol;
* `coverage_is_exact`: the check is exact, and no step fires on what it reports;
* `misfiled_transition_fires`: why the transitions have to stand under what they read.
-/

namespace TapeLang

/-! ### The symbols of a row, each once -/

namespace Program

theorem mem_distinctSymbols {seen row : List Symbol} {s : Symbol} :
    s ∈ distinctSymbols seen row ↔ s ∈ row ∧ s ∉ seen := by
  induction row generalizing seen with
  | nil => simp [distinctSymbols]
  | cons t row ih =>
    rw [distinctSymbols]
    split
    · next ht =>
      rw [ih, List.mem_cons]
      refine ⟨fun h => ⟨.inr h.1, h.2⟩, ?_⟩
      rintro ⟨rfl | hs, hseen⟩
      · contradiction
      · exact ⟨hs, hseen⟩
    · next ht =>
      rw [List.mem_cons, ih, List.mem_cons, List.mem_cons]
      by_cases hst : s = t
      · simp [hst, ht]
      · simp [hst]

/-- The symbols stand in the order of their first occurrences. -/
theorem pairwise_distinctSymbols (seen row : List Symbol) :
    (distinctSymbols seen row).Pairwise fun s t => row.idxOf s < row.idxOf t := by
  induction row generalizing seen with
  | nil => exact .nil
  | cons t row ih =>
    -- a symbol other than the first one is found one place later
    have hlater : ∀ {s : Symbol}, s ≠ t → (t :: row).idxOf s = row.idxOf s + 1 := fun hs =>
      List.idxOf_cons_ne row (Ne.symm hs)
    rw [distinctSymbols]
    split
    · next ht =>
      refine (ih seen).imp_of_mem fun hx hy h => ?_
      have hne : ∀ {s : Symbol}, s ∈ distinctSymbols seen row → s ≠ t := by
        rintro s hs rfl
        exact (mem_distinctSymbols.1 hs).2 ht
      rw [hlater (hne hx), hlater (hne hy)]
      omega
    · next ht =>
      have hne : ∀ {s : Symbol}, s ∈ distinctSymbols (t :: seen) row → s ≠ t := by
        rintro s hs rfl
        exact (mem_distinctSymbols.1 hs).2 List.mem_cons_self
      refine List.pairwise_cons.2 ⟨fun s hs => ?_, (ih (t :: seen)).imp_of_mem fun hx hy h => ?_⟩
      · rw [List.idxOf_cons_self, hlater (hne hs)]
        omega
      · rw [hlater (hne hx), hlater (hne hy)]
        omega

/-! ### What the check finds -/

/-- The symbol stands on the initial tape with the given number and is not the blank symbol, and no transition
of any state has it at that place of what it reads. -/
structure Uncovered (p : Program) (index : Nat) (s : Symbol) : Prop where
  occurs : ∃ row, p.tapes[index]? = some row ∧ s ∈ row
  ne_blank : s ≠ p.blank
  unread : ∀ e ∈ p.states.entries, ∀ e' ∈ e.2.transitions.entries, e'.2.read[index]? ≠ some s

/-- The tapes and symbols that the check finds. -/
def uncoveredPairs (p : Program) : List (Nat × Symbol) :=
  p.tapes.zipIdx.flatMap fun (row, index) =>
    ((distinctSymbols [] row).filter fun s => s ≠ p.blank ∧ s ∉ p.readSymbols index).map (index, ·)

/-- The first occurrence of a symbol on a tape: the number of the tape, and then the place on it. -/
def firstPlace (p : Program) (x : Nat × Symbol) : Nat ×ₗ Nat :=
  toLex (x.1, (p.tapes.getD x.1 []).idxOf x.2)

variable {p : Program}

theorem coverageFindings_eq (p : Program) :
    p.coverageFindings = p.uncoveredPairs.map fun x => .uncoveredSymbol x.1 x.2 := by
  rw [uncoveredPairs, List.map_flatMap]
  simp only [List.map_map]
  rfl

theorem mem_readSymbols {index : Nat} {s : Symbol} :
    s ∈ p.readSymbols index ↔
      ∃ e ∈ p.states.entries, ∃ e' ∈ e.2.transitions.entries, e'.2.read[index]? = some s := by
  simp only [readSymbols, transitions, Table.values, List.mem_filterMap, List.mem_flatMap, List.mem_map]
  constructor
  · rintro ⟨⟨_, _⟩, ⟨_, ⟨e, he, rfl⟩, _, ⟨e', he', rfl⟩, heq⟩, hread⟩
    cases heq
    exact ⟨e, he, e', he', hread⟩
  · rintro ⟨e, he, e', he', hread⟩
    exact ⟨(e.2, e'.2), ⟨_, ⟨e, he, rfl⟩, _, ⟨e', he', rfl⟩, rfl⟩, hread⟩

/-- **The check finds the symbols that are not covered.** -/
theorem mem_uncoveredPairs {index : Nat} {s : Symbol} :
    (index, s) ∈ p.uncoveredPairs ↔ p.Uncovered index s := by
  have hunread : s ∉ p.readSymbols index ↔
      ∀ e ∈ p.states.entries, ∀ e' ∈ e.2.transitions.entries, e'.2.read[index]? ≠ some s := by
    rw [mem_readSymbols]
    push Not
    rfl
  simp only [uncoveredPairs, List.mem_flatMap, List.mem_map, List.mem_filter, mem_distinctSymbols,
    decide_eq_true_iff, Prod.exists, List.mem_zipIdx_iff_getElem?]
  constructor
  · rintro ⟨row, i, hrow, t, ⟨⟨ht, -⟩, hblank, hread⟩, heq⟩
    cases heq
    exact ⟨⟨row, hrow, ht⟩, hblank, hunread.1 hread⟩
  · rintro ⟨⟨row, hrow, hs⟩, hblank, hread⟩
    exact ⟨row, index, hrow, s, ⟨⟨hs, List.not_mem_nil⟩, hblank, hunread.2 hread⟩, rfl⟩

instance (p : Program) (index : Nat) (s : Symbol) : Decidable (p.Uncovered index s) :=
  decidable_of_iff _ mem_uncoveredPairs

/-- **They are found in the order of the tapes,** and on a tape in the order of their first occurrences. -/
theorem pairwise_uncoveredPairs (p : Program) :
    p.uncoveredPairs.Pairwise fun x y => p.firstPlace x < p.firstPlace y := by
  rw [uncoveredPairs, List.pairwise_flatMap]
  constructor
  · rintro ⟨row, index⟩ hrow
    have hplace : ∀ s, p.firstPlace (index, s) = toLex (index, row.idxOf s) := by
      intro s
      rw [firstPlace, List.getD_eq_getElem?_getD, List.mem_zipIdx_iff_getElem?.1 hrow]
      rfl
    rw [List.pairwise_map]
    refine ((pairwise_distinctSymbols [] row).filter _).imp fun h => ?_
    rw [hplace, hplace]
    exact Prod.Lex.toLex_lt_toLex.2 (.inr ⟨rfl, h⟩)
  · have hindex : p.tapes.zipIdx.Pairwise fun a b => a.2 < b.2 := by
      rw [← List.pairwise_map (f := Prod.snd) (R := (· < ·)), List.zipIdx_map_snd]
      exact List.pairwise_lt_range'
    refine hindex.imp fun {a b} hab x hx y hy => ?_
    obtain ⟨s, -, rfl⟩ := List.mem_map.1 hx
    obtain ⟨t, -, rfl⟩ := List.mem_map.1 hy
    exact Prod.Lex.toLex_lt_toLex.2 (.inl hab)

/-- A report tells its tape and its symbol. -/
theorem diagnostic_uncoveredSymbol_injective (file : Option String) :
    Function.Injective fun x : Nat × Symbol => (Finding.uncoveredSymbol x.1 x.2).diagnostic file := by
  rintro ⟨i, s⟩ ⟨j, t⟩ h
  have hextra : [("tape", Json.int i), ("symbol", .str s)] = [("tape", .int j), ("symbol", .str t)] :=
    congrArg (fun d : Diagnostic => d.extra.entries) h
  simpa using hextra

/-! ### Reading what is not covered -/

/-- Every transition stands under the symbols that it reads. -/
def KeyedByRead (p : Program) : Prop :=
  ∀ e ∈ p.states.entries, ∀ e' ∈ e.2.transitions.entries, e'.1 = e'.2.read

instance (p : Program) : Decidable p.KeyedByRead :=
  inferInstanceAs (Decidable (∀ e ∈ p.states.entries, ∀ e' ∈ e.2.transitions.entries, e'.1 = e'.2.read))

theorem keyedByRead_of_build {tree : Ast.Program} (h : build tree = .ok p) : p.KeyedByRead := by
  rintro ⟨name, state⟩ hstate e he
  have hbuilt := state?_of_build h name
  rw [state?, Table.find?_eq_some_iff.2 hstate] at hbuilt
  generalize tree.lastState? name = node at hbuilt
  cases hbuilt with
  | some hlowers =>
    obtain ⟨t, -, hkey, ht⟩ := exists_of_forall₂_of_mem hlowers.entries he
    exact hkey.trans ht.read.symm

/-- No state has a transition for symbols of which one is not covered. -/
theorem transition?_eq_none_of_uncovered (hkeys : p.KeyedByRead) {index : Nat} {s : Symbol}
    (hs : p.Uncovered index s) {read : List Symbol} (hread : read[index]? = some s) (name : String) :
    p.transition? name read = none := by
  rw [Option.eq_none_iff_forall_ne_some]
  intro t ht
  obtain ⟨state, hstate, hentry⟩ := transition?_eq_some_iff.1 ht
  have hkey : read = t.read := hkeys _ hstate _ hentry
  exact hs.unread _ hstate _ hentry (hkey ▸ hread)

end Program

namespace Machine

/-! ### A machine keeps its program -/

theorem program_fire (m : Machine) (read : List Symbol) (t : Transition) :
    (m.fire read t).2.program = m.program := by
  unfold fire
  split
  dsimp only
  split <;> rfl

theorem program_step (m : Machine) : m.step.2.program = m.program := by
  unfold step
  split
  · dsimp only
    split
    · rfl
    · split
      · exact program_fire _ _ _
      · rfl
  · rfl

theorem program_of_step {m m' : Machine} {r : Except Breakdown Outcome} (h : m.step = (r, m')) :
    m'.program = m.program := by
  rw [← m.program_step, h]

theorem program_runFrom (cap : Option Int) (stop : Nat → Bool) (patience taken : Nat) (m : Machine)
    (last : Outcome) (log : List LogRecord) :
    (runFrom cap stop patience taken m last log).machine.program = m.program := by
  fun_induction runFrom cap stop patience taken m last log with
  | case4 _ _ _ _ _ _ _ _ _ _ hstep => exact program_of_step hstep
  | case5 _ _ _ _ _ _ _ _ _ _ hstep ih => exact ih.trans (program_of_step hstep)
  | case1 | case2 | case3 | case6 => rfl

theorem program_traceFrom (cap : Option Int) (requests taken : Nat) (m : Machine) (shots : List Snapshot)
    (log : List LogRecord) : (traceFrom cap requests taken m shots log).machine.program = m.program := by
  fun_induction traceFrom cap requests taken m shots log with
  | case3 _ _ _ _ _ _ _ _ _ hstep => exact program_of_step hstep
  | case4 _ _ _ _ _ _ _ _ _ hstep ih => exact ih.trans (program_of_step hstep)
  | case1 | case2 | case5 => rfl

theorem program_perform (m : Machine) (c : Call) : (m.perform c).2.program = m.program := by
  cases c with
  | step => exact m.program_step
  | run cap stop patience => exact program_runFrom _ _ _ _ _ _ _
  | trace cap taken requests => exact program_traceFrom _ _ _ _ _ _
  | inspect what => cases what <;> rfl

theorem Reached.program_eq {p : Program} {mode : Mode} {config : TapeLang.Config}
    {fired : List Transition} {m : Machine} (h : Reached p mode config fired m) : m.program = p := by
  induction h with
  | start => rfl
  | call _ c ih => exact (program_perform _ c).trans ih
  | reset _ ih => exact ih

/-- A running machine that finds no transition for what it reads stops. -/
theorem step_of_unfit_read {m : Machine} {read : List Symbol} (hrun : m.status = .running)
    (hread : m.nextRead? = some read) (hnone : m.program.transition? m.state read = none) :
    m.step.1 = .ok ⟨m.step.2.status, m.steps, m.state, some read, none⟩ ∧ m.step.2.status ≠ .running := by
  unfold nextRead? at hread
  have hstatus : m.stuckStatus read ≠ .running := by
    unfold stuckStatus
    cases m.mode <;> simp
  unfold step
  simp only [hrun, hread, hnone]
  exact ⟨rfl, hstatus⟩

end Machine

/-- **The check of the symbols is exact, and what it reports stops a machine.** Nothing is required of the
program. There is one report for each tape and symbol that is not covered, and no other; they are in the order
of the tapes, and on a tape in the order of the first occurrences. The whole analysis has them under the
identifier of the check. If the transitions stand under what they read, as they do in every program that is
built, then a machine that any calls have led to, and that reads such a symbol on its tape, fires nothing in
that step and stops. -/
theorem coverage_is_exact (p : Program) (file : Option String) :
    let reports := (Check.run [.symbolCoverage] p file {}).diagnostics
    (∃ pairs : List (Nat × Symbol),
        reports = pairs.map (fun x => (Finding.uncoveredSymbol x.1 x.2).diagnostic file) ∧
        (∀ index s, (index, s) ∈ pairs ↔ p.Uncovered index s) ∧
        pairs.Pairwise fun x y => p.firstPlace x < p.firstPlace y) ∧
      reports.Nodup ∧
      (analyze p file).filter (fun d => d.id = "uncovered-symbol") = reports ∧
      (∀ tree, build tree = .ok p → p.KeyedByRead) ∧
      (p.KeyedByRead → ∀ (mode : Mode) (config : Config) (fired : List Transition) (m : Machine),
        Machine.Reached p mode config fired m → m.status = .running →
        ∀ (read : List Symbol) (index : Nat) (s : Symbol), m.nextRead? = some read →
          read[index]? = some s → p.Uncovered index s →
          m.step.1 = .ok ⟨m.step.2.status, m.steps, m.state, some read, none⟩ ∧
            m.step.2.status ≠ .running) := by
  intro reports
  have hfindings : reports = p.coverageFindings.map (Finding.diagnostic file) :=
    Check.symbolCoverage.diagnostics_run p file
  have hreports : reports =
      p.uncoveredPairs.map fun x => (Finding.uncoveredSymbol x.1 x.2).diagnostic file := by
    rw [hfindings, p.coverageFindings_eq, List.map_map]
    rfl
  have horder := p.pairwise_uncoveredPairs
  refine ⟨⟨p.uncoveredPairs, hreports, fun _ _ => Program.mem_uncoveredPairs, horder⟩, ?_, ?_,
    fun tree => Program.keyedByRead_of_build, ?_⟩
  · have hnodup : p.uncoveredPairs.Nodup := horder.imp fun h heq => h.ne (congrArg p.firstPlace heq)
    rw [hreports]
    exact hnodup.map (Program.diagnostic_uncoveredSymbol_injective file)
  · rw [hfindings]
    exact Check.symbolCoverage.filter_id_analyze p file
  · intro hkeys mode config fired m hm hrun read index s hread hs huncovered
    refine Machine.step_of_unfit_read hrun hread ?_
    rw [hm.program_eq]
    exact Program.transition?_eq_none_of_uncovered hkeys huncovered hs m.state

/-- Two tapes, and transitions with one, two and three entries. The first tape has two symbols that none of
them reads first, one of them twice; `c` is read third, and `a` is not read on the second tape. -/
def unevenReads : Program where
  name := none
  blank := "_"
  arity := 2
  tapes := [["a", "c", "b", "c", "_", "d"], ["x", "a"]]
  heads := [0, 0]
  states := .ofList
    [ ("q", ⟨"q", .ofList
        [ (["a", "x"], ⟨["a", "x"], ["b", "x"], [.right, .stay], "q", {}⟩),
          (["b"], ⟨["b"], [], [], "q", {}⟩),
          (["b", "x", "c"], ⟨["b", "x", "c"], ["b"], [.left], "q", {}⟩) ], {}⟩) ]
  start := "q"

/-- Three symbols are reported, and a machine that has fired one transition stops at the first of them. -/
theorem coverage_is_exact_uneven_reads :
    unevenReads.KeyedByRead ∧
      (Check.run [.symbolCoverage] unevenReads none {}).diagnostics.map (fun d => d.extra.find? "symbol") =
        [some (.str "c"), some (.str "d"), some (.str "a")] ∧
      unevenReads.Uncovered 0 "c" ∧
      ∃ m, m = ((Machine.start unevenReads).perform .step).2 ∧ m.steps = 1 ∧
        m.nextRead? = some ["c", "x"] ∧
        m.step.1 = .ok ⟨m.step.2.status, 1, "q", some ["c", "x"], none⟩ ∧ m.step.2.status ≠ .running := by
  have hkeys : unevenReads.KeyedByRead := by decide +kernel
  obtain ⟨-, -, -, -, hstops⟩ := coverage_is_exact unevenReads none
  have hextra : (Check.run [.symbolCoverage] unevenReads none {}).diagnostics.map
      (fun d => d.extra.find? "symbol") = [some (.str "c"), some (.str "d"), some (.str "a")] := by rfl
  have huncovered : unevenReads.Uncovered 0 "c" := by decide +kernel
  have hstart : Machine.Reached unevenReads .normal {} [] (Machine.start unevenReads) := .start
  have hrun : ((Machine.start unevenReads).perform .step).2.status = .running := by decide +kernel
  have hsteps : ((Machine.start unevenReads).perform .step).2.steps = 1 := by decide +kernel
  have hread : ((Machine.start unevenReads).perform .step).2.nextRead? = some ["c", "x"] := by
    decide +kernel
  have hstate : ((Machine.start unevenReads).perform .step).2.state = "q" := by decide +kernel
  obtain ⟨hstep, hstatus⟩ :=
    hstops hkeys .normal {} _ _ (hstart.call .step) hrun ["c", "x"] 0 "c" hread rfl huncovered
  rw [hsteps, hstate] at hstep
  exact ⟨hkeys, hextra, huncovered, _, rfl, hsteps, hread, hstep, hstatus⟩

/-- One transition, which reads `b` but stands under `a`, and a tape with an `a`. -/
def misfiledRead : Program where
  name := none
  blank := "_"
  arity := 1
  tapes := [["a"]]
  heads := [0]
  states := .ofList [("q", ⟨"q", .ofList [(["a"], ⟨["b"], ["c"], [.right], "q", {}⟩)], {}⟩)]
  start := "q"

/-- **A step can fire on what is reported,** if transitions need not stand under what they read: a state looks
for the symbols under which a transition stands, and the check for those that it reads. Here `a` is not covered
and is reported, and a machine reads it in its first step, fires the transition and goes on. -/
theorem misfiled_transition_fires :
    ¬misfiledRead.KeyedByRead ∧
      (Check.run [.symbolCoverage] misfiledRead none {}).diagnostics.map (fun d => d.extra.find? "symbol") =
        [some (.str "a")] ∧
      misfiledRead.Uncovered 0 "a" ∧
      ∃ m, Machine.Reached misfiledRead .normal {} [] m ∧ m.status = .running ∧ m.nextRead? = some ["a"] ∧
        m.step.1 = .ok ⟨.running, 1, "q", some ["a"], some ⟨["b"], ["c"], [.right], "q", {}⟩⟩ := by
  have hkeys : ¬misfiledRead.KeyedByRead := by decide +kernel
  have huncovered : misfiledRead.Uncovered 0 "a" := by decide +kernel
  have hread : (Machine.start misfiledRead).nextRead? = some ["a"] := by decide +kernel
  exact ⟨hkeys, rfl, huncovered, Machine.start misfiledRead, .start, rfl, hread, rfl⟩

end TapeLang
