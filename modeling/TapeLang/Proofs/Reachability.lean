import Mathlib
import TapeLang.Analysis.Check
import TapeLang.Proofs.Table

/-!
# The search for reachable states

The search keeps a queue of states whose transitions are still to be followed. What has been seen is
closed under transitions to declared states, but for the states in the queue, and the search does not run
out of fuel before the queue is empty: every step takes one state from the queue, and a state comes into
it only once.

* `Program.mem_freshTargets`, `Program.nodup_freshTargets`: what one state adds to the queue;
* `Program.Explores`, `Program.Explores.step`: the invariant of the search and one step;
* `Program.start_mem_reachable`, `Program.next_mem_reachable`: the states that are found contain the start
  state and are closed under transitions;
* `Program.reachFindings_eq`: the check of reachability finds the other states.
-/

namespace TapeLang.Program

variable {p : Program} {seen : List String}

/-! ### What one state adds -/

theorem mem_freshTargets {names fresh : List String} {name : String} :
    name ∈ p.freshTargets seen names fresh ↔
      name ∈ fresh ∨ name ∈ names ∧ name ∈ p.states.keys ∧ name ∉ seen := by
  induction names generalizing fresh with
  | nil => simp [freshTargets]
  | cons x names ih =>
    by_cases hx : p.states.contains x ∧ x ∉ seen ∧ x ∉ fresh
    · have hkey := Table.contains_iff.1 hx.1
      rw [freshTargets, if_pos hx, ih, List.mem_cons, List.mem_cons]
      by_cases hname : name = x
      · subst hname
        simp [hkey, hx.2.1]
      · simp [hname]
    · rw [freshTargets, if_neg hx, ih, List.mem_cons]
      by_cases hname : name = x
      · subst hname
        rw [Table.contains_iff] at hx
        by_cases hfresh : name ∈ fresh
        · simp [hfresh]
        · -- the state that is passed over is not declared, or has been seen
          have hskip : ¬(name ∈ p.states.keys ∧ name ∉ seen) := fun h => hx ⟨h.1, h.2, hfresh⟩
          simp [hfresh, hskip]
      · simp [hname]

theorem nodup_freshTargets {names fresh : List String} (h : fresh.Nodup) :
    (p.freshTargets seen names fresh).Nodup := by
  induction names generalizing fresh with
  | nil => exact h
  | cons x names ih =>
    by_cases hx : p.states.contains x ∧ x ∉ seen ∧ x ∉ fresh
    · rw [freshTargets, if_pos hx]
      exact ih (List.nodup_cons.2 ⟨hx.2.2, h⟩)
    · rw [freshTargets, if_neg hx]
      exact ih h

/-- The declared states that have not been seen. -/
def unseen (p : Program) (seen : List String) : List String := p.states.keys.filter (· ∉ seen)

/-- What is new to the queue is no longer unseen. -/
theorem length_unseen_append {fresh : List String} (hnodup : fresh.Nodup)
    (hfresh : ∀ name ∈ fresh, name ∈ p.states.keys ∧ name ∉ seen) :
    fresh.length + (p.unseen (fresh ++ seen)).length ≤ (p.unseen seen).length := by
  have hdistinct : (fresh ++ p.unseen (fresh ++ seen)).Nodup := by
    refine List.nodup_append.2 ⟨hnodup, p.states.nodup.filter _, ?_⟩
    rintro name hname _ hother rfl
    simp [unseen, hname] at hother
  have hsubset : fresh ++ p.unseen (fresh ++ seen) ⊆ p.unseen seen := by
    intro name hname
    rcases List.mem_append.1 hname with hname | hname
    · simpa [unseen] using hfresh name hname
    · have hrest : name ∈ p.states.keys ∧ name ∉ fresh ∧ name ∉ seen := by simpa [unseen] using hname
      simpa [unseen] using ⟨hrest.1, hrest.2.2⟩
  have hlength := (List.subperm_of_subset hdistinct hsubset).length_le
  rwa [List.length_append] at hlength

/-! ### The search -/

/-- Where the search stands: the declared targets of a state that has been seen have been seen too, unless
the state is in the queue, and the fuel suffices for the queue and for the states that may still come into
it. -/
structure Explores (p : Program) (fuel : Nat) (queue seen : List String) : Prop where
  closed : ∀ name ∈ seen, name ∉ queue → ∀ next ∈ p.targets name, next ∈ p.states.keys → next ∈ seen
  fuel : queue.length + (p.unseen seen).length ≤ fuel

/-- **Following the transitions of one state keeps the search on its way.** -/
theorem Explores.step {fuel : Nat} {name : String} {queue : List String}
    (h : p.Explores (fuel + 1) (name :: queue) seen) :
    p.Explores fuel (queue ++ (p.freshTargets seen (p.targets name) []).reverse)
      (p.freshTargets seen (p.targets name) [] ++ seen) := by
  have hfresh : ∀ x, x ∈ p.freshTargets seen (p.targets name) [] ↔
      x ∈ p.targets name ∧ x ∈ p.states.keys ∧ x ∉ seen := by
    intro x
    rw [mem_freshTargets]
    simp
  constructor
  · intro x hx hqueue next hnext hkey
    rw [List.mem_append, List.mem_reverse, not_or] at hqueue
    have hseen : x ∈ seen := (List.mem_append.1 hx).resolve_left hqueue.2
    by_cases hnew : next ∈ seen
    · exact List.mem_append_right _ hnew
    · by_cases hname : x = name
      · subst hname
        exact List.mem_append_left _ ((hfresh next).2 ⟨hnext, hkey, hnew⟩)
      · have hold : x ∉ name :: queue := by simp [hname, hqueue.1]
        exact absurd (h.closed x hseen hold next hnext hkey) hnew
  · have hnodup : (p.freshTargets seen (p.targets name) []).Nodup := nodup_freshTargets List.nodup_nil
    have hlength := length_unseen_append hnodup fun x hx => ((hfresh x).1 hx).2
    have hfuel := h.fuel
    rw [List.length_cons] at hfuel
    rw [List.length_append, List.length_reverse]
    omega

/-- **What the search finds is closed under transitions to declared states,** and nothing that has been
seen is lost. -/
theorem Explores.explore {fuel : Nat} {queue : List String} (h : p.Explores fuel queue seen) :
    seen ⊆ p.explore fuel queue seen ∧
      ∀ name ∈ p.explore fuel queue seen, ∀ next ∈ p.targets name, next ∈ p.states.keys →
        next ∈ p.explore fuel queue seen := by
  induction fuel generalizing queue seen with
  | zero =>
    have hempty : queue = [] := List.eq_nil_of_length_eq_zero (by have := h.fuel; omega)
    subst hempty
    exact ⟨fun _ hname => hname, fun name hname => h.closed name hname (by simp)⟩
  | succ fuel ih =>
    cases queue with
    | nil => exact ⟨fun _ hname => hname, fun name hname => h.closed name hname (by simp)⟩
    | cons name queue =>
      obtain ⟨hseen, hclosed⟩ := ih h.step
      exact ⟨fun x hx => hseen (List.mem_append_right _ hx), hclosed⟩

theorem explores_start (h : p.start ∈ p.states.keys) :
    p.Explores p.states.size [p.start] [p.start] where
  closed := by
    intro name hname hqueue
    exact absurd hname hqueue
  fuel := by
    have hall : (p.unseen []).length = p.states.size := by
      simp [unseen, Table.keys, Table.size]
    have hlength : [p.start].length + (p.unseen ([p.start] ++ [])).length ≤ (p.unseen []).length :=
      length_unseen_append (List.nodup_singleton p.start) (by simpa using h)
    rwa [hall] at hlength

theorem start_mem_reachable (h : p.start ∈ p.states.keys) : p.start ∈ p.reachable :=
  (explores_start h).explore.1 (List.mem_singleton_self _)

theorem next_mem_reachable (h : p.start ∈ p.states.keys) {name next : String} (hname : name ∈ p.reachable)
    (hnext : next ∈ p.targets name) (hkey : next ∈ p.states.keys) : next ∈ p.reachable :=
  (explores_start h).explore.2 name hname next hnext hkey

/-! ### What is reported -/

theorem reachFindings_eq (hstart : p.start ∈ p.states.keys) :
    p.reachFindings = (p.states.entries.filter fun e => e.1 ∉ p.reachable).map fun e =>
      .unreachableState e.1 p.start e.2.loc := by
  rw [reachFindings, if_pos (Table.contains_iff.2 hstart)]
  induction p.states.entries with
  | nil => rfl
  | cons e es ih => by_cases he : e.1 ∈ p.reachable <;> simp [he, ih]

theorem reachFindings_of_undeclared (hstart : p.start ∉ p.states.keys) : p.reachFindings = [] :=
  if_neg fun h => hstart (Table.contains_iff.1 h)

end TapeLang.Program
