import Mathlib
import TapeLang.Proofs.Table
import TapeLang.Proofs.Tree
import TapeLang.Proofs.Reader

/-!
# What building a program guarantees

A tree that has been read is built into a program unless a transition has the wrong length or repeats a
read vector; the program is then well formed.

* `Transition.Fits`, `Program.WellFormed`: what is true of every program that has been built;
* `BuildError.IsAt`: an error in a given transition;
* `build_of_isRead`: the two ways in which building can end.
-/

namespace TapeLang

/-- A transition for a program with `arity` tapes. -/
structure Transition.Fits (t : Transition) (arity : Nat) : Prop where
  read_length : t.read.length = arity
  write_length : t.write.length = arity
  move_length : t.move.length = arity
  read_single : ∀ s ∈ t.read, s.length = 1
  write_single : ∀ s ∈ t.write, s.length = 1

/-- A state each of whose transitions fits and stands under the symbols that it reads. -/
structure State.Fits (s : State) (arity : Nat) : Prop where
  key : ∀ e ∈ s.transitions.entries, e.1 = e.2.read
  fits : ∀ e ∈ s.transitions.entries, e.2.Fits arity

/-- What is true of every program that has been built from a text. -/
structure Program.WellFormed (p : Program) : Prop where
  arity_pos : 1 ≤ p.arity
  tapes_length : (p.tapes.length : Int) = p.arity
  heads_length : (p.heads.length : Int) = p.arity
  heads_nonneg : ∀ h ∈ p.heads, 0 ≤ h
  blank_single : p.blank.length = 1
  tapes_single : ∀ row ∈ p.tapes, ∀ s ∈ row, s.length = 1
  start_first : p.states.keys.head? = some p.start
  states : ∀ e ∈ p.states.entries, e.2.name = e.1 ∧ e.2.Fits p.arity.toNat

/-- The error says that the transition has the wrong length or repeats a read vector. -/
inductive BuildError.IsAt (arity : Nat) (state : String) (t : Ast.Transition) : BuildError → Prop
  | length (part : VectorPart) (n : Nat) : IsAt arity state t (.vectorLength state part n arity t.loc)
  | repeated (read : List Symbol) (first : Int) : IsAt arity state t (.repeatedRead state read first t.loc)

namespace Ast

variable {blank : TapeLang.Symbol} (arity : Nat) (state : String)

/-! ### Transitions -/

theorem directions_of_isSome {tokens : List String}
    (h : ∀ m ∈ tokens, (Direction.ofText? m).isSome) : ∃ ds, directions tokens = .ok ds := by
  induction tokens with
  | nil => exact ⟨[], rfl⟩
  | cons token tokens ih =>
    rw [List.forall_mem_cons] at h
    obtain ⟨d, hd⟩ := Option.isSome_iff_exists.1 h.1
    obtain ⟨ds, hds⟩ := ih h.2
    refine ⟨d :: ds, ?_⟩
    simp only [directions, hd, hds]
    rfl

theorem single_resolveAll (hb : blank.length = 1) {row : List Symbol}
    (h : ∀ s ∈ row, s.spelling.IsSingle) : ∀ x ∈ resolveAll blank row, x.length = 1 := by
  intro x hx
  obtain ⟨s, hs, rfl⟩ := List.mem_map.1 hx
  exact Spelling.length_resolve hb (h s hs)

/-- A transition that has been read fits, or has the wrong length. -/
theorem Transition.build_of_isSpelled (hb : blank.length = 1) {t : Transition} (ht : t.IsSpelled) :
    (∃ u, t.build blank arity state = .ok u ∧ u.Fits arity ∧ u.loc = t.loc) ∨
      ∃ e, t.build blank arity state = .error e ∧ e.IsAt arity state t := by
  obtain ⟨move, hmove⟩ := directions_of_isSome ht.moves
  have hread : ∀ x ∈ resolveAll blank t.read, x.length = 1 := single_resolveAll hb ht.read
  have hwrite : ∀ x ∈ (t.write.map (resolveAll blank)).getD (resolveAll blank t.read),
      x.length = 1 := by
    cases hw : t.write with
    | none => exact hread
    | some w => exact single_resolveAll hb (ht.write w hw)
  unfold Transition.build
  rw [hmove]
  simp only [bind, Except.bind]
  split
  · exact .inr ⟨_, rfl, .length _ _⟩
  · next h₁ =>
    split
    · exact .inr ⟨_, rfl, .length _ _⟩
    · next h₂ =>
      split
      · exact .inr ⟨_, rfl, .length _ _⟩
      · next h₃ =>
        rw [not_not] at h₁ h₂ h₃
        exact .inl ⟨_, rfl, ⟨h₁, h₂, h₃, hread, hwrite⟩, rfl⟩

/-! ### States -/

/-- The entries of a table of transitions stand under their read vectors and fit. -/
def FitTable (table : Table (List TapeLang.Symbol) TapeLang.Transition) : Prop :=
  ∀ e ∈ table.entries, e.1 = e.2.read ∧ e.2.Fits arity

theorem buildTransitions_of_isSpelled (hb : blank.length = 1) {nodes : List Transition}
    (hnodes : ∀ t ∈ nodes, t.IsSpelled) {table : Table (List TapeLang.Symbol) TapeLang.Transition}
    (htable : FitTable arity table) :
    (∃ table', buildTransitions blank arity state nodes table = .ok table' ∧ FitTable arity table') ∨
      ∃ e, buildTransitions blank arity state nodes table = .error e ∧
        ∃ t ∈ nodes, e.IsAt arity state t := by
  induction nodes generalizing table with
  | nil => exact .inl ⟨table, rfl, htable⟩
  | cons node nodes ih =>
    rw [List.forall_mem_cons] at hnodes
    rcases Transition.build_of_isSpelled arity state hb hnodes.1 with
      ⟨t, ht, hfits, hloc⟩ | ⟨e, he, hat⟩
    · simp only [buildTransitions, ht]
      cases hfind : table.find? t.read with
      | some earlier =>
        refine .inr ⟨_, by simp [bind, Except.bind, hfind]; rfl, node, List.mem_cons_self, ?_⟩
        rw [hloc]
        exact .repeated _ _
      | none =>
        have htable' : FitTable arity (table.insert t.read t) := by
          intro e he
          rcases Table.mem_entries_insert he with rfl | he
          · exact ⟨rfl, hfits⟩
          · exact htable e he
        simp only [bind, Except.bind, hfind]
        rcases ih hnodes.2 htable' with hok | ⟨e, he, u, hu, hat⟩
        · exact .inl hok
        · exact .inr ⟨e, he, u, List.mem_cons_of_mem node hu, hat⟩
    · refine .inr ⟨e, ?_, node, List.mem_cons_self, hat⟩
      simp only [buildTransitions, he]
      rfl

theorem State.build_of_isSpelled (hb : blank.length = 1) {s : State}
    (hs : ∀ t ∈ s.transitions, t.IsSpelled) :
    (∃ u, s.build blank arity = .ok u ∧ u.name = s.name ∧ u.Fits arity) ∨
      ∃ e, s.build blank arity = .error e ∧ ∃ t ∈ s.transitions, e.IsAt arity s.name t := by
  have hempty : FitTable arity .empty := by
    intro e he
    cases he
  unfold State.build
  rcases buildTransitions_of_isSpelled arity s.name hb hs hempty with
    ⟨table, htable, hfit⟩ | ⟨e, he, hat⟩
  · refine .inl ⟨⟨s.name, table, s.loc⟩, by rw [htable]; rfl, rfl, ?_⟩
    exact ⟨fun e he => (hfit e he).1, fun e he => (hfit e he).2⟩
  · exact .inr ⟨e, by rw [he]; rfl, hat⟩

/-- The entries of a table of states stand under their names and fit. -/
def FitStates (table : Table String TapeLang.State) : Prop :=
  ∀ e ∈ table.entries, e.2.name = e.1 ∧ e.2.Fits arity

theorem buildStates_of_isSpelled (hb : blank.length = 1) {nodes : List State}
    (hnodes : ∀ s ∈ nodes, ∀ t ∈ s.transitions, t.IsSpelled) {table : Table String TapeLang.State}
    (htable : FitStates arity table) :
    (∃ table', buildStates blank arity nodes table = .ok table' ∧ FitStates arity table' ∧
        ∀ first, table.keys.head? = some first → table'.keys.head? = some first) ∨
      ∃ e, buildStates blank arity nodes table = .error e ∧
        ∃ s ∈ nodes, ∃ t ∈ s.transitions, e.IsAt arity s.name t := by
  induction nodes generalizing table with
  | nil => exact .inl ⟨table, rfl, htable, fun _ h => h⟩
  | cons node nodes ih =>
    rw [List.forall_mem_cons] at hnodes
    rcases State.build_of_isSpelled arity hb hnodes.1 with
      ⟨s, hs, hname, hfits⟩ | ⟨e, he, hat⟩
    · simp only [buildStates, hs, bind, Except.bind]
      have htable' : FitStates arity (table.insert node.name s) := by
        intro e he
        rcases Table.mem_entries_insert he with rfl | he
        · exact ⟨hname, hfits⟩
        · exact htable e he
      rcases ih hnodes.2 htable' with ⟨table', hok, hfit, hfirst⟩ | ⟨e, he, u, hu, hat⟩
      · exact .inl ⟨table', hok, hfit, fun first h => hfirst first (Table.head?_keys_insert h)⟩
      · exact .inr ⟨e, he, u, List.mem_cons_of_mem node hu, hat⟩
    · refine .inr ⟨e, ?_, node, List.mem_cons_self, hat⟩
      simp only [buildStates, he]
      rfl

end Ast

/-! ### Programs -/

/-- **A tree that has been read is built into a well-formed program,** or one of its transitions has the
wrong length or repeats a read vector. -/
theorem build_of_isRead {tree : Ast.Program} (h : tree.IsRead) :
    (∃ p, build tree = .ok p ∧ p.WellFormed ∧
        tree.states.head?.map Ast.State.name = some p.start) ∨
      ∃ e, build tree = .error e ∧
        ∃ s ∈ tree.states, ∃ t ∈ s.transitions, e.IsAt tree.tape.arity s.name t := by
  have hblank : ((tree.blank.map Ast.BlankDecl.symbol).getD defaultBlank).length = 1 := by
    cases hb : tree.blank with
    | none => decide
    | some d => exact h.blank d hb
  have harity : tree.tape.arity ≠ 0 := fun h0 => h.rows_ne (List.eq_nil_of_length_eq_zero h0)
  have hheads : ((tree.head.map Ast.HeadDecl.positions).getD
      (List.replicate tree.tape.arity 0)).length = tree.tape.arity := by
    cases hd : tree.head with
    | none => exact List.length_replicate
    | some d => exact h.head_count d hd
  have hnonneg : ∀ x ∈ (tree.head.map Ast.HeadDecl.positions).getD
      (List.replicate tree.tape.arity 0), 0 ≤ x := by
    cases hd : tree.head with
    | none =>
      intro x hx
      rw [List.eq_of_mem_replicate hx]
    | some d => exact h.heads d hd
  -- the first state is where the program starts, and it stays first in the table
  obtain ⟨first, rest, hstates⟩ := List.exists_cons_of_ne_nil h.states_ne
  unfold build
  simp only [harity, hheads, hstates, if_false, ne_eq, not_true_eq_false]
  have hspelled := h.transitions
  rw [hstates, List.forall_mem_cons] at hspelled
  simp only [Ast.buildStates]
  rcases Ast.State.build_of_isSpelled tree.tape.arity hblank hspelled.1 with
    ⟨s, hs, hname, hfits⟩ | ⟨e, he, hat⟩
  · have htable : Ast.FitStates tree.tape.arity (Table.empty.insert first.name s) := by
      intro e he
      rcases Table.mem_entries_insert he with rfl | he
      · exact ⟨hname, hfits⟩
      · cases he
    rw [hs]
    rcases Ast.buildStates_of_isSpelled tree.tape.arity hblank hspelled.2 htable with
      ⟨table, hok, hfit, hfirst⟩ | ⟨e, he, u, hu, hat⟩
    · refine .inl ⟨_, by simp only [bind, Except.bind, hok]; rfl, ?_, rfl⟩
      exact
        { arity_pos := by simp only; omega
          tapes_length := by simp [Ast.TapeDecl.arity]
          heads_length := by simp only [hheads]
          heads_nonneg := hnonneg
          blank_single := hblank
          tapes_single := by
            intro row hrow
            obtain ⟨nodes, hnodes, rfl⟩ := List.mem_map.1 hrow
            exact Ast.single_resolveAll hblank (h.rows nodes hnodes)
          start_first := hfirst first.name rfl
          states := hfit }
    · refine .inr ⟨e, by simp only [bind, Except.bind, he], u, List.mem_cons_of_mem first hu, hat⟩
  · exact .inr ⟨e, by rw [he]; rfl, first, List.mem_cons_self, hat⟩

/-- Other input of the right size keeps a program well formed. -/
theorem Program.WellFormed.withTapes {p q : Program} (hp : p.WellFormed)
    {rows : List (List Symbol)} (h : p.withTapes rows = .ok q) : q.WellFormed := by
  unfold Program.withTapes at h
  split at h
  · cases h
  · next hcount =>
    split at h
    · cases h
    · next hwide =>
      cases h
      rw [not_not] at hcount
      refine { hp with tapes_length := hcount, tapes_single := ?_ }
      intro row hrow s hs
      have := List.find?_eq_none.1 hwide s (List.mem_flatten.2 ⟨row, hrow, hs⟩)
      simpa using this

end TapeLang
