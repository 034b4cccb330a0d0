import Mathlib
import TapeLang.Proofs.Analysis
import TapeLang.Proofs.Reachability

/-!
# The search finds the states that paths lead to

Nothing is required of the program: its transitions may lead back, to one state from several others, and to
states that are not declared. The search ends, and it finds exactly the states to which a path of transitions
through declared states leads from the start state.

* `Program.Leads`: a transition from one declared state to another;
* `Program.visit`, `Program.Explores.iterate_visit`: one round of the search, and its end;
* `Program.mem_reachable_iff`: what the search finds;
* `reachability_is_exact`: what it reports.
-/

namespace TapeLang

namespace Program

variable {p : Program} {seen : List String}

/-- A transition of the declared state `a` leads to the declared state `b`. -/
def Leads (p : Program) (a b : String) : Prop :=
  ∃ s, (a, s) ∈ p.states.entries ∧ (∃ t ∈ s.transitions.values, t.next = b) ∧ b ∈ p.states.keys

theorem leads_iff {a b : String} : p.Leads a b ↔ b ∈ p.targets a ∧ b ∈ p.states.keys := by
  unfold Leads targets state?
  simp only [← Table.find?_eq_some_iff]
  cases p.states.find? a with
  | none => simp
  | some s => simp

/-! ### The end of the search -/

/-- One round of the search: the first state leaves the queue, and those targets of its transitions that are
declared and new are put behind the others. The second list has all states that have ever been in the queue. -/
def visit (p : Program) : List String × List String → List String × List String
  | ([], seen) => ([], seen)
  | (name :: queue, seen) =>
    let fresh := p.freshTargets seen (p.targets name) []
    (queue ++ fresh.reverse, fresh ++ seen)

theorem iterate_visit_nil (p : Program) (n : Nat) (seen : List String) :
    p.visit^[n] ([], seen) = ([], seen) := Function.iterate_fixed rfl n

theorem explore_eq_iterate (p : Program) (fuel : Nat) (queue seen : List String) :
    p.explore fuel queue seen = (p.visit^[fuel] (queue, seen)).2 := by
  induction fuel generalizing queue seen with
  | zero => rfl
  | succ fuel ih =>
    cases queue with
    | nil => rw [iterate_visit_nil]; rfl
    | cons name queue =>
      rw [Function.iterate_succ_apply]
      exact ih _ _

/-- **The search ends.** As long as the fuel suffices for the queue and for all states that may still come
into it, the queue is empty in the end. -/
theorem Explores.iterate_visit {fuel : Nat} {queue : List String} (h : p.Explores fuel queue seen) :
    p.visit^[fuel] (queue, seen) = ([], p.explore fuel queue seen) := by
  have hempty : (p.visit^[fuel] (queue, seen)).1 = [] := by
    induction fuel generalizing queue seen with
    | zero =>
      have hfuel := h.fuel
      exact List.eq_nil_of_length_eq_zero (show queue.length = 0 by omega)
    | succ fuel ih =>
      cases queue with
      | nil => rw [iterate_visit_nil]
      | cons name queue =>
        rw [Function.iterate_succ_apply]
        exact ih h.step
  rw [explore_eq_iterate]
  exact Prod.ext hempty rfl

/-! ### What it finds -/

/-- What the search finds is the end of a path, if all states are from which it starts. -/
theorem path_of_mem_explore {fuel : Nat} {queue : List String}
    (hqueue : ∀ name ∈ queue, Relation.ReflTransGen p.Leads p.start name)
    (hseen : ∀ name ∈ seen, Relation.ReflTransGen p.Leads p.start name) {name : String}
    (h : name ∈ p.explore fuel queue seen) : Relation.ReflTransGen p.Leads p.start name := by
  induction fuel generalizing queue seen with
  | zero => exact hseen name h
  | succ fuel ih =>
    cases queue with
    | nil => exact hseen name h
    | cons first queue =>
      rw [List.forall_mem_cons] at hqueue
      have hfresh : ∀ x ∈ p.freshTargets seen (p.targets first) [],
          Relation.ReflTransGen p.Leads p.start x := by
        intro x hx
        obtain ⟨htarget, hkey, -⟩ := (mem_freshTargets.1 hx).resolve_left List.not_mem_nil
        exact hqueue.1.tail (leads_iff.2 ⟨htarget, hkey⟩)
      refine ih ?_ ?_ h
      · exact List.forall_mem_append.2 ⟨hqueue.2, fun x hx => hfresh x (List.mem_reverse.1 hx)⟩
      · exact List.forall_mem_append.2 ⟨hfresh, hseen⟩

/-- **The search finds the states to which a path leads.** -/
theorem mem_reachable_iff (hstart : p.start ∈ p.states.keys) {name : String} :
    name ∈ p.reachable ↔ Relation.ReflTransGen p.Leads p.start name := by
  constructor
  · intro h
    have hfirst : ∀ x ∈ [p.start], Relation.ReflTransGen p.Leads p.start x := by
      intro x hx
      rw [List.mem_singleton.1 hx]
    exact path_of_mem_explore hfirst hfirst h
  · intro h
    induction h with
    | refl => exact start_mem_reachable hstart
    | tail _ hleads ih =>
      obtain ⟨htarget, hkey⟩ := leads_iff.1 hleads
      exact next_mem_reachable hstart ih htarget hkey

end Program

open Classical in
/-- **The check of reachability is exact.** Nothing is required of the program. If its start state is
declared, the search comes to an empty queue after no more rounds than there are states, and there is one
report for each declared state to which no path of transitions through declared states leads from the start
state, in the order of declaration. If the start state is not declared, nothing is reported. The whole
analysis reports the same under the identifier of the check. -/
theorem reachability_is_exact (p : Program) (file : Option String) :
    let reports := (Check.run [.reachability] p file {}).diagnostics
    (p.start ∈ p.states.keys →
      p.visit^[p.states.size] ([p.start], [p.start]) = ([], p.reachable) ∧
        reports =
          (p.states.entries.filter fun e => ¬Relation.ReflTransGen p.Leads p.start e.1).map fun e =>
            (Finding.unreachableState e.1 p.start e.2.loc).diagnostic file) ∧
      (p.start ∉ p.states.keys → reports = []) ∧
      (analyze p file).filter (fun d => d.id = "unreachable-state") = reports := by
  intro reports
  have hreports : reports = p.reachFindings.map (Finding.diagnostic file) :=
    Check.reachability.diagnostics_run p file
  refine ⟨fun hstart => ⟨(Program.explores_start hstart).iterate_visit, ?_⟩, fun hstart => ?_, ?_⟩
  · have hfilter : (p.states.entries.filter fun e => e.1 ∉ p.reachable) =
        p.states.entries.filter fun e => ¬Relation.ReflTransGen p.Leads p.start e.1 :=
      List.filter_congr fun e _ => decide_eq_decide.2 (not_congr (Program.mem_reachable_iff hstart))
    rw [hreports, Program.reachFindings_eq hstart, hfilter, List.map_map]
    rfl
  · rw [hreports, Program.reachFindings_of_undeclared hstart]
    rfl
  · rw [hreports]
    exact Check.reachability.filter_id_analyze p file

/-- The start state leads to itself, to a state that is not declared and to `r`; both lead to `s`, and `r`
leads back. The first state and the last lead to each other, to themselves and to the start state. -/
def maze : Program where
  name := none
  blank := "_"
  arity := 1
  tapes := []
  heads := []
  states := .ofList
    [ ("x", ⟨"x", .ofList [(["a"], ⟨["a"], [], [], "y", {}⟩), (["b"], ⟨["b"], [], [], "q", {}⟩)], {}⟩),
      ("q", ⟨"q", .ofList [(["a"], ⟨["a"], [], [], "q", {}⟩), (["b"], ⟨["b"], [], [], "gone", {}⟩),
        (["c"], ⟨["c"], [], [], "r", {}⟩), (["d"], ⟨["d"], [], [], "s", {}⟩)], {}⟩),
      ("s", ⟨"s", .empty, {}⟩),
      ("r", ⟨"r", .ofList [(["a"], ⟨["a"], [], [], "q", {}⟩), (["b"], ⟨["b"], [], [], "s", {}⟩)], {}⟩),
      ("y", ⟨"y", .ofList [(["a"], ⟨["a"], [], [], "y", {}⟩), (["b"], ⟨["b"], [], [], "x", {}⟩)], {}⟩) ]
  start := "q"

/-- The first state and the last are reported, and no path leads to them. -/
theorem reachability_is_exact_maze :
    maze.start ∈ maze.states.keys ∧
      (Check.run [.reachability] maze none {}).diagnostics.map Diagnostic.state = [some "x", some "y"] ∧
      ¬Relation.ReflTransGen maze.Leads "q" "x" ∧ Relation.ReflTransGen maze.Leads "q" "s" := by
  have hstart : maze.start ∈ maze.states.keys := by decide +kernel
  have hstates : (Check.run [.reachability] maze none {}).diagnostics.map Diagnostic.state =
      [some "x", some "y"] := by decide +kernel
  have hreports := ((reachability_is_exact maze none).1 hstart).2
  have hmem : ∀ name, some name ∈ [some "x", some "y"] ↔
      ∃ e ∈ maze.states.entries, ¬Relation.ReflTransGen maze.Leads "q" e.1 ∧ e.1 = name := by
    intro name
    rw [← hstates, hreports]
    simp only [List.mem_map, List.mem_filter, decide_eq_true_iff]
    constructor
    · rintro ⟨d, ⟨e, ⟨he, hpath⟩, rfl⟩, heq⟩
      exact ⟨e, he, hpath, Option.some.inj heq⟩
    · rintro ⟨e, he, hpath, rfl⟩
      exact ⟨_, ⟨e, ⟨he, hpath⟩, rfl⟩, rfl⟩
  refine ⟨hstart, hstates, ?_, ?_⟩
  · obtain ⟨e, -, hpath, heq⟩ := (hmem "x").1 (by decide)
    exact heq ▸ hpath
  · by_contra hpath
    have hkey : "s" ∈ maze.states.keys := by decide +kernel
    obtain ⟨e, he, heq⟩ := List.mem_map.1 hkey
    have hreported := (hmem "s").2 ⟨e, he, heq ▸ hpath, heq⟩
    exact absurd hreported (by decide)

end TapeLang
