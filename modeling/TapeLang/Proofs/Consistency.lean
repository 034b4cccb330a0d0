import Mathlib
import TapeLang.Proofs.Build

/-!
# The trees that are built

A tree is built exactly if its lengths agree and no state has two transitions that read the same symbols once
the blank symbol stands in place of its alias. The program then has, under each name, the last state of that
name, and its transitions in the order in which they are written.

* `Ast.Transition.Lowers`, `Ast.State.Lowers`: a node and what is built from it;
* `Ast.Program.Consistent`: the trees that are built;
* `Ast.Transition.build_eq_ok_iff`, `Ast.State.build_eq_ok_iff`, `exists_build_iff`: when a node is built;
* `Ast.State.Lowers.lookup_eq_some_iff`: what is found in a state that has been built;
* `build_is_exact`: the programs that are built, as a whole.
-/

namespace TapeLang

/-! ### Lists of results -/

section Lists

variable {α β γ : Type*} {R : α → β → Prop} {as : List α} {bs : List β}

theorem exists_forall₂ (h : ∀ a ∈ as, ∃ b, R a b) : ∃ bs, List.Forall₂ R as bs := by
  induction as with
  | nil => exact ⟨[], .nil⟩
  | cons a as ih =>
    rw [List.forall_mem_cons] at h
    obtain ⟨b, hb⟩ := h.1
    obtain ⟨bs, hbs⟩ := ih h.2
    exact ⟨b :: bs, .cons hb hbs⟩

theorem map_eq_of_forall₂ {f : α → γ} {g : β → γ} (h : List.Forall₂ R as bs)
    (hfg : ∀ a b, R a b → g b = f a) : bs.map g = as.map f := by
  induction h with
  | nil => rfl
  | @cons a b as bs hab _ ih => rw [List.map_cons, List.map_cons, hfg a b hab, ih]

/-- Searches in lists that are related item by item end at related items. -/
theorem rel_find? {p : α → Bool} {q : β → Bool} (h : List.Forall₂ R as bs)
    (hpq : ∀ a b, R a b → p a = q b) : Option.Rel R (as.find? p) (bs.find? q) := by
  induction h with
  | nil => exact .none
  | @cons a b as bs hab _ ih =>
    rw [List.find?_cons, List.find?_cons, hpq a b hab]
    cases q b with
    | false => exact ih
    | true => exact .some hab

end Lists

/-! ### What a node stands for -/

/-- The ways to write a move. -/
def Direction.spellings : Direction → List String
  | .left => ["L", "<"]
  | .right => ["R", ">"]
  | .stay => ["S", "-"]

theorem Direction.ofText?_eq_some_iff {token : String} {d : Direction} :
    ofText? token = some d ↔ token ∈ d.spellings := by
  constructor
  · intro h
    unfold ofText? at h
    split at h <;> cases h <;> simp [spellings]
  · intro h
    cases d <;> simp only [spellings, List.mem_cons, List.not_mem_nil, or_false] at h <;>
      rcases h with rfl | rfl <;> rfl

namespace Ast

/-- A transition line and the transition that it stands for. -/
structure Transition.Lowers (blank : TapeLang.Symbol) (t : Transition) (u : TapeLang.Transition) : Prop where
  read : u.read = resolveAll blank t.read
  write : ∀ w, t.write = some w → u.write = resolveAll blank w
  /-- Without symbols to write, those that are read are written back. -/
  omitted : t.write = none → u.write = u.read
  move : List.Forall₂ (fun token d => token ∈ d.spellings) t.moves u.move
  next : u.next = t.next
  loc : u.loc = t.loc

/-- Each part of the line has one entry for each of `arity` tapes. -/
structure Transition.HasArity (arity : Nat) (t : Transition) : Prop where
  read : t.read.length = arity
  write : ∀ w, t.write = some w → w.length = arity
  moves : t.moves.length = arity

/-- A state node and the state that it stands for: the table has an entry for each line, in the order of the
lines, under the symbols that the line reads. -/
structure State.Lowers (blank : TapeLang.Symbol) (s : State) (u : TapeLang.State) : Prop where
  name : u.name = s.name
  loc : u.loc = s.loc
  entries : List.Forall₂ (fun t e => e.1 = resolveAll blank t.read ∧ t.Lowers blank e.2) s.transitions
    u.transitions.entries

/-- The lines of a state node have the right lengths, and no two of them read the same symbols. -/
structure State.Consistent (blank : TapeLang.Symbol) (arity : Nat) (s : State) : Prop where
  lengths : ∀ t ∈ s.transitions, t.HasArity arity
  reads : (s.transitions.map fun t => resolveAll blank t.read).Nodup

/-- The lines of a state node that read given symbols. -/
def State.reading (blank : TapeLang.Symbol) (s : State) (v : List TapeLang.Symbol) : List Transition :=
  s.transitions.filter fun t => resolveAll blank t.read = v

/-- The declared blank symbol, or the default one. -/
def Program.blankSymbol (tree : Program) : TapeLang.Symbol :=
  (tree.blank.map BlankDecl.symbol).getD defaultBlank

/-- The last state node of a given name. -/
def Program.lastState? (tree : Program) (name : String) : Option State :=
  tree.states.reverse.find? fun s => s.name = name

/-- There is a tape and a state, and all lengths agree with the number of tapes; no state node, also none
that a later one of its name replaces, has two lines that read the same symbols. -/
structure Program.Consistent (tree : Program) : Prop where
  tapes : 1 ≤ tree.tape.rows.length
  heads : ∀ d, tree.head = some d → d.positions.length = tree.tape.rows.length
  states : tree.states ≠ []
  nodes : ∀ s ∈ tree.states, s.Consistent tree.blankSymbol tree.tape.rows.length

variable {blank : TapeLang.Symbol} {arity : Nat} {state : String}

/-! ### Transitions -/

theorem directions_eq_ok_iff {tokens : List String} {ds : List Direction} :
    directions tokens = .ok ds ↔ List.Forall₂ (fun token d => token ∈ d.spellings) tokens ds := by
  induction tokens generalizing ds with
  | nil => simp [directions, eq_comm]
  | cons token tokens ih =>
    rw [List.forall₂_cons_left_iff]
    simp only [directions, ← ih]
    cases hd : Direction.ofText? token with
    | none => simp [← Direction.ofText?_eq_some_iff, hd]
    | some d =>
      simp only [← Direction.ofText?_eq_some_iff, hd, bind_eq_ok]
      simp [pure, Except.pure, eq_comm]

namespace Transition

variable {t : Transition} {u u' : TapeLang.Transition}

theorem lowers_iff : t.Lowers blank u ↔ ∃ move, directions t.moves = .ok move ∧
    u = ⟨resolveAll blank t.read, (t.write.map (resolveAll blank)).getD (resolveAll blank t.read), move,
      t.next, t.loc⟩ := by
  constructor
  · intro h
    have hwrite : u.write = (t.write.map (resolveAll blank)).getD (resolveAll blank t.read) := by
      cases hw : t.write with
      | none => exact (h.omitted hw).trans h.read
      | some w => exact h.write w hw
    refine ⟨u.move, directions_eq_ok_iff.2 h.move, ?_⟩
    rw [← hwrite, ← h.read, ← h.next, ← h.loc]
  · rintro ⟨move, hmove, rfl⟩
    refine ⟨rfl, ?_, ?_, directions_eq_ok_iff.1 hmove, rfl, rfl⟩
    · intro w hw
      simp [hw]
    · intro hw
      simp [hw]

/-- A line stands for one transition. -/
theorem Lowers.unique (h : t.Lowers blank u) (h' : t.Lowers blank u') : u = u' := by
  obtain ⟨move, hmove, rfl⟩ := lowers_iff.1 h
  obtain ⟨move', hmove', rfl⟩ := lowers_iff.1 h'
  cases hmove.symm.trans hmove'
  rfl

theorem Lowers.hasArity_iff (h : t.Lowers blank u) :
    t.HasArity arity ↔ u.read.length = arity ∧ u.write.length = arity ∧ u.move.length = arity := by
  have hread : u.read.length = t.read.length := by rw [h.read, resolveAll, List.length_map]
  have hmove : t.moves.length = u.move.length := h.move.length_eq
  rw [hread, ← hmove]
  cases hw : t.write with
  | none =>
    rw [h.omitted hw, hread]
    exact ⟨fun ha => ⟨ha.read, ha.read, ha.moves⟩, fun ⟨hr, _, hm⟩ => ⟨hr, by simp [hw], hm⟩⟩
  | some w =>
    rw [h.write w hw, resolveAll, List.length_map]
    exact ⟨fun ha => ⟨ha.read, ha.write w hw, ha.moves⟩, fun ⟨hr, hl, hm⟩ => ⟨hr, by simp [hw, hl], hm⟩⟩

/-- **A line is built exactly if its lengths are right.** -/
theorem build_eq_ok_iff :
    t.build blank arity state = .ok u ↔ t.HasArity arity ∧ t.Lowers blank u := by
  unfold Transition.build
  rw [bind_eq_ok]
  constructor
  · rintro ⟨move, hmove, h⟩
    split at h
    · cases h
    next hread =>
    split at h
    · cases h
    next hwrite =>
    split at h
    · cases h
    next hlength =>
    cases h
    rw [not_not] at hread hwrite hlength
    have hlowers : t.Lowers blank _ := lowers_iff.2 ⟨move, hmove, rfl⟩
    exact ⟨hlowers.hasArity_iff.2 ⟨hread, hwrite, hlength⟩, hlowers⟩
  · rintro ⟨harity, hlowers⟩
    obtain ⟨hread, hwrite, hlength⟩ := hlowers.hasArity_iff.1 harity
    obtain ⟨move, hmove, rfl⟩ := lowers_iff.1 hlowers
    refine ⟨move, hmove, ?_⟩
    rw [if_neg (not_not.2 hread), if_neg (not_not.2 hwrite), if_neg (not_not.2 hlength)]

end Transition

/-! ### States -/

theorem buildTransitions_eq_ok_iff {nodes : List Transition}
    {table table' : Table (List TapeLang.Symbol) TapeLang.Transition} :
    buildTransitions blank arity state nodes table = .ok table' ↔
      ∃ us, List.Forall₂ (fun t u => t.build blank arity state = .ok u) nodes us ∧
        (table.keys ++ us.map TapeLang.Transition.read).Nodup ∧
        table' = us.foldl (fun table u => table.insert u.read u) table := by
  induction nodes generalizing table with
  | nil =>
    have hkeys : table.keys.Nodup := table.nodup
    simp [buildTransitions, hkeys, eq_comm]
  | cons node nodes ih =>
    simp only [buildTransitions, bind_eq_ok, List.forall₂_cons_left_iff]
    constructor
    · rintro ⟨u, hu, h⟩
      cases hfind : table.find? u.read with
      | some earlier =>
        rw [hfind] at h
        cases h
      | none =>
        rw [hfind] at h
        obtain ⟨us, hus, hnodup, rfl⟩ := ih.1 h
        have hfresh := Table.find?_eq_none_iff_not_mem_keys.1 hfind
        rw [Table.keys_insert, if_neg hfresh, List.append_assoc] at hnodup
        exact ⟨u :: us, ⟨u, us, hu, hus, rfl⟩, hnodup, rfl⟩
    · rintro ⟨_, ⟨u, us, hu, hus, rfl⟩, hnodup, rfl⟩
      have hfresh : u.read ∉ table.keys := by
        intro hmem
        exact (List.nodup_append.1 hnodup).2.2 _ hmem _ List.mem_cons_self rfl
      refine ⟨u, hu, ?_⟩
      rw [Table.find?_eq_none_iff_not_mem_keys.2 hfresh]
      refine ih.2 ⟨us, hus, ?_, rfl⟩
      rw [Table.keys_insert, if_neg hfresh, List.append_assoc]
      exact hnodup

namespace State

variable {s : State} {u : TapeLang.State}

theorem map_read_of_lowers {ts : List Transition} {us : List TapeLang.Transition}
    (h : List.Forall₂ (Transition.Lowers blank) ts us) :
    us.map TapeLang.Transition.read = ts.map fun t => resolveAll blank t.read :=
  map_eq_of_forall₂ h fun _ _ hlowers => hlowers.read

/-- **A state node is built exactly if it is consistent** and its lines stand for transitions. -/
theorem build_eq_ok_iff :
    s.build blank arity = .ok u ↔ s.Consistent blank arity ∧
      ∃ us, List.Forall₂ (Transition.Lowers blank) s.transitions us ∧
        u = ⟨s.name, .ofList (us.map fun u => (u.read, u)), s.loc⟩ := by
  unfold State.build
  simp only [bind_eq_ok, buildTransitions_eq_ok_iff, Transition.build_eq_ok_iff, List.forall₂_and_left]
  constructor
  · rintro ⟨_, ⟨us, ⟨hlengths, hus⟩, hnodup, rfl⟩, h⟩
    cases h
    refine ⟨⟨hlengths, ?_⟩, us, hus, ?_⟩
    · rw [← map_read_of_lowers hus]
      exact hnodup
    · rw [Table.ofList, List.foldl_map]
  · rintro ⟨hs, us, hus, rfl⟩
    refine ⟨_, ⟨us, ⟨hs.lengths, hus⟩, ?_, rfl⟩, ?_⟩
    · rw [map_read_of_lowers hus]
      exact hs.reads
    · rw [Table.ofList, List.foldl_map]
      rfl

theorem lowers_of_build (h : s.build blank arity = .ok u) : s.Lowers blank u := by
  obtain ⟨hs, us, hus, rfl⟩ := build_eq_ok_iff.1 h
  refine ⟨rfl, rfl, ?_⟩
  have hnodup : ((us.map fun u => (u.read, u)).map Prod.fst).Nodup := by
    rw [List.map_map]
    show (us.map TapeLang.Transition.read).Nodup
    rw [map_read_of_lowers hus]
    exact hs.reads
  rw [Table.entries_ofList hnodup, List.forall₂_map_right_iff]
  exact hus.imp fun t u h => ⟨h.read, h⟩

theorem exists_build (hs : s.Consistent blank arity)
    (hmoves : ∀ t ∈ s.transitions, ∀ token ∈ t.moves, (Direction.ofText? token).isSome) :
    ∃ u, s.build blank arity = .ok u := by
  have hlowers : ∀ t ∈ s.transitions, ∃ u, t.Lowers blank u := by
    intro t ht
    obtain ⟨move, hmove⟩ := directions_of_isSome (hmoves t ht)
    exact ⟨_, Transition.lowers_iff.2 ⟨move, hmove, rfl⟩⟩
  obtain ⟨us, hus⟩ := exists_forall₂ hlowers
  exact ⟨_, build_eq_ok_iff.2 ⟨hs, us, hus, rfl⟩⟩

theorem Lowers.keys (h : s.Lowers blank u) :
    u.transitions.keys = s.transitions.map fun t => resolveAll blank t.read :=
  map_eq_of_forall₂ h.entries fun _ _ hentry => hentry.1

theorem reading_eq_singleton_iff {v : List TapeLang.Symbol} {t : Transition}
    (h : (s.transitions.map fun t => resolveAll blank t.read).Nodup) :
    s.reading blank v = [t] ↔ t ∈ s.transitions ∧ resolveAll blank t.read = v := by
  have hmem : ∀ t', t' ∈ s.reading blank v ↔ t' ∈ s.transitions ∧ resolveAll blank t'.read = v := by
    simp [reading]
  rw [← hmem]
  constructor
  · intro hread
    rw [hread]
    exact List.mem_singleton_self t
  · intro ht
    have hnodup : (s.reading blank v).Nodup := h.of_map.filter _
    refine List.perm_singleton.1 ((List.perm_ext_iff_of_nodup hnodup (List.nodup_singleton t)).2 ?_)
    intro t'
    rw [List.mem_singleton]
    constructor
    · intro ht'
      have hsame := ((hmem t').1 ht').2.trans ((hmem t).1 ht).2.symm
      exact List.inj_on_of_nodup_map h ((hmem t').1 ht').1 ((hmem t).1 ht).1 hsame
    · rintro rfl
      exact ht

/-- **What is found under given symbols** is what the one line that reads them stands for. -/
theorem Lowers.lookup_eq_some_iff (h : s.Lowers blank u) {v : List TapeLang.Symbol}
    {t' : TapeLang.Transition} :
    u.lookup v = some t' ↔ ∃ t, s.reading blank v = [t] ∧ t.Lowers blank t' := by
  have hnodup : (s.transitions.map fun t => resolveAll blank t.read).Nodup := h.keys ▸ u.transitions.nodup
  rw [TapeLang.State.lookup, Table.find?_eq_some_iff]
  constructor
  · intro hentry
    obtain ⟨t, ht, hkey, hlowers⟩ := exists_of_forall₂_of_mem h.entries hentry
    exact ⟨t, (reading_eq_singleton_iff hnodup).2 ⟨ht, hkey.symm⟩, hlowers⟩
  · rintro ⟨t, hreading, hlowers⟩
    obtain ⟨ht, rfl⟩ := (reading_eq_singleton_iff hnodup).1 hreading
    obtain ⟨⟨k, t''⟩, hentry, hkey, hlowers'⟩ := exists_of_forall₂_of_mem h.entries.flip ht
    rw [hlowers.unique hlowers', ← hkey]
    exact hentry

theorem Lowers.lookup_eq_none_iff (h : s.Lowers blank u) {v : List TapeLang.Symbol} :
    u.lookup v = none ↔ s.reading blank v = [] := by
  rw [TapeLang.State.lookup, Table.find?_eq_none_iff_not_mem_keys, h.keys, reading, List.filter_eq_nil_iff]
  simp

end State

/-! ### Programs -/

theorem buildStates_eq_ok_iff {nodes : List State} {table table' : Table String TapeLang.State} :
    buildStates blank arity nodes table = .ok table' ↔
      ∃ us, List.Forall₂ (fun s u => s.build blank arity = .ok u) nodes us ∧
        table' = us.foldl (fun table u => table.insert u.name u) table := by
  induction nodes generalizing table with
  | nil => simp [buildStates, eq_comm]
  | cons node nodes ih =>
    simp only [buildStates, bind_eq_ok, ih, List.forall₂_cons_left_iff]
    constructor
    · rintro ⟨u, hu, us, hus, rfl⟩
      refine ⟨u :: us, ⟨u, us, hu, hus, rfl⟩, ?_⟩
      rw [← (State.lowers_of_build hu).name, List.foldl_cons]
    · rintro ⟨_, ⟨u, us, hu, hus, rfl⟩, rfl⟩
      refine ⟨u, hu, us, hus, ?_⟩
      rw [← (State.lowers_of_build hu).name, List.foldl_cons]

end Ast

/-- **A program is built exactly if** there is a tape, a position for each head, a state, and each state node
is built; its table of states is that of the states in turn. -/
theorem exists_build_iff {tree : Ast.Program} {table : Table String State} :
    (∃ p, build tree = .ok p ∧ p.states = table) ↔
      1 ≤ tree.tape.rows.length ∧
      (∀ d, tree.head = some d → d.positions.length = tree.tape.rows.length) ∧
      tree.states ≠ [] ∧
      ∃ us, List.Forall₂ (fun s u => s.build tree.blankSymbol tree.tape.rows.length = .ok u) tree.states us ∧
        table = .ofList (us.map fun u => (u.name, u)) := by
  have hlength : ((tree.head.map Ast.HeadDecl.positions).getD
      (List.replicate tree.tape.rows.length 0)).length = tree.tape.rows.length ↔
        ∀ d, tree.head = some d → d.positions.length = tree.tape.rows.length := by
    cases tree.head with
    | none => simp
    | some d => simp
  have htable : (∃ us, List.Forall₂ (fun s u => s.build tree.blankSymbol tree.tape.rows.length = .ok u)
      tree.states us ∧ table = .ofList (us.map fun u => (u.name, u))) ↔
        Ast.buildStates tree.blankSymbol tree.tape.rows.length tree.states .empty = .ok table := by
    rw [Ast.buildStates_eq_ok_iff]
    simp only [Table.ofList, List.foldl_map]
  rw [htable, ← hlength, Nat.one_le_iff_ne_zero]
  unfold build
  by_cases harity : tree.tape.rows.length = 0
  · simp [Ast.TapeDecl.arity, harity]
  by_cases hheads : ((tree.head.map Ast.HeadDecl.positions).getD
      (List.replicate tree.tape.rows.length 0)).length = tree.tape.rows.length
  · simp only [Ast.TapeDecl.arity, harity, hheads, ne_eq, not_true_eq_false, not_false_eq_true, if_false,
      true_and]
    cases tree.states with
    | nil => simp
    | cons first rest =>
      simp only [bind_eq_ok]
      constructor
      · rintro ⟨p, ⟨table, hok, h⟩, rfl⟩
        cases h
        exact ⟨List.cons_ne_nil first rest, hok⟩
      · rintro ⟨-, hok⟩
        exact ⟨_, ⟨table, hok, rfl⟩, rfl⟩
  · simp [Ast.TapeDecl.arity, harity, hheads]

section Built

variable {tree : Ast.Program} {p : Program}

theorem exists_states_of_build (h : build tree = .ok p) :
    ∃ us, List.Forall₂ (Ast.State.Lowers tree.blankSymbol) tree.states us ∧
      p.states = .ofList (us.map fun u => (u.name, u)) := by
  obtain ⟨-, -, -, us, hus, htable⟩ := exists_build_iff.1 ⟨p, h, rfl⟩
  exact ⟨us, hus.imp fun s u hu => Ast.State.lowers_of_build hu, htable⟩

/-- The names of the states are in the order in which they first occur. -/
theorem keys_of_build (h : build tree = .ok p) :
    p.states.keys = (tree.states.map Ast.State.name).eraseDups := by
  obtain ⟨us, hus, htable⟩ := exists_states_of_build h
  have hnames : us.map State.name = tree.states.map Ast.State.name :=
    map_eq_of_forall₂ hus fun s u hlowers => hlowers.name
  rw [htable, Table.keys_ofList, List.map_map, ← hnames]
  rfl

/-- Under each name stands what the last state node of that name stands for. -/
theorem state?_of_build (h : build tree = .ok p) (name : String) :
    Option.Rel (Ast.State.Lowers tree.blankSymbol) (tree.lastState? name) (p.state? name) := by
  obtain ⟨us, hus, htable⟩ := exists_states_of_build h
  have hstate : p.state? name = us.reverse.find? fun u => u.name = name := by
    rw [Program.state?, htable, Table.find?_ofList, ← List.map_reverse, List.find?_map, Option.map_map]
    exact Option.map_id'
  rw [hstate, Ast.Program.lastState?]
  refine rel_find? (List.forall₂_reverse_iff.2 hus) ?_
  intro s u hlowers
  rw [hlowers.name]

theorem consistent_of_build (h : build tree = .ok p) : tree.Consistent := by
  obtain ⟨htapes, hheads, hstates, us, hus, -⟩ := exists_build_iff.1 ⟨p, h, rfl⟩
  refine ⟨htapes, hheads, hstates, ?_⟩
  intro s hs
  obtain ⟨u, -, hu⟩ := exists_of_forall₂_of_mem hus.flip hs
  exact (Ast.State.build_eq_ok_iff.1 hu).1

theorem exists_build_of_consistent (h : tree.Consistent)
    (hmoves : ∀ s ∈ tree.states, ∀ t ∈ s.transitions, ∀ token ∈ t.moves, (Direction.ofText? token).isSome) :
    ∃ p, build tree = .ok p := by
  obtain ⟨us, hus⟩ := exists_forall₂ fun s hs => Ast.State.exists_build (h.nodes s hs) (hmoves s hs)
  obtain ⟨p, hp, -⟩ := exists_build_iff.2 ⟨h.tapes, h.heads, h.states, us, hus, rfl⟩
  exact ⟨p, hp⟩

end Built

/-- **Building is exact.** A tree with the six spellings of moves is built exactly if it is consistent. The
names of the states are then in the order in which they first occur, and each has the last state node of its
name, with its lines in their order. Under any symbols is found what the one line that reads them stands for,
and nothing if there is no such line. -/
theorem build_is_exact (tree : Ast.Program)
    (hmoves : ∀ s ∈ tree.states, ∀ t ∈ s.transitions, ∀ token ∈ t.moves,
      token ∈ ["L", "<", "R", ">", "S", "-"]) :
    ((∃ p, build tree = .ok p) ↔ tree.Consistent) ∧
      ∀ p, build tree = .ok p →
        p.states.keys = (tree.states.map Ast.State.name).eraseDups ∧
        ∀ name, (tree.lastState? name = none → p.state? name = none) ∧
          ∀ s, tree.lastState? name = some s →
            ∃ u, p.state? name = some u ∧ s.Lowers tree.blankSymbol u ∧
              (∀ v t', u.lookup v = some t' ↔
                ∃ t, s.reading tree.blankSymbol v = [t] ∧ t.Lowers tree.blankSymbol t') ∧
              ∀ v, u.lookup v = none ↔ s.reading tree.blankSymbol v = [] := by
  have hspelled : ∀ token ∈ ["L", "<", "R", ">", "S", "-"], (Direction.ofText? token).isSome := by decide
  refine ⟨⟨fun ⟨p, hp⟩ => consistent_of_build hp, fun h => exists_build_of_consistent h ?_⟩, ?_⟩
  · exact fun s hs t ht token htoken => hspelled token (hmoves s hs t ht token htoken)
  intro p hp
  refine ⟨keys_of_build hp, ?_⟩
  intro name
  have hrel := state?_of_build hp name
  generalize p.state? name = found at hrel ⊢
  constructor
  · intro hnone
    rw [hnone] at hrel
    cases hrel with
    | none => rfl
  · intro s hs
    rw [hs] at hrel
    cases hrel with
    | some hlowers =>
      exact ⟨_, rfl, hlowers, fun _ _ => hlowers.lookup_eq_some_iff, fun _ => hlowers.lookup_eq_none_iff⟩

/-- Two tapes with the blank symbol `b`, and two state nodes of one name; both lines of the second one read
the blank symbol from the first tape. -/
def shadowedTree : Ast.Program where
  tape := ⟨[[⟨.bare "a", {}⟩], []], true, {}⟩
  blank := some ⟨"b", {}⟩
  states := [
    ⟨"s", [⟨[⟨.bare "a", {}⟩, ⟨.bare "a", {}⟩], none, ["L", "R"], "s", true, {}⟩], {}⟩,
    ⟨"t", [], {}⟩,
    ⟨"s", [
      ⟨[⟨.blank, {}⟩, ⟨.bare "a", {}⟩], none, ["<", "S"], "t", true, {}⟩,
      ⟨[⟨.quoted "b", {}⟩, ⟨.blank, {}⟩], some [⟨.bare "c", {}⟩, ⟨.blank, {}⟩], [">", "-"], "s", true, {}⟩], {}⟩]

/-- The first state node of the name is replaced, and the second keeps its place. -/
theorem build_is_exact_shadowed :
    (∀ s ∈ shadowedTree.states, ∀ t ∈ s.transitions, ∀ token ∈ t.moves,
        token ∈ ["L", "<", "R", ">", "S", "-"]) ∧
      shadowedTree.Consistent ∧
      ∃ p u, build shadowedTree = .ok p ∧ p.states.keys = ["s", "t"] ∧ p.state? "s" = some u ∧
        u.lookup ["b", "a"] = some ⟨["b", "a"], ["b", "a"], [.left, .stay], "t", {}⟩ ∧
        u.lookup ["b", "b"] = some ⟨["b", "b"], ["c", "b"], [.right, .stay], "s", {}⟩ ∧
        u.lookup ["a", "a"] = none := by
  have hmoves : ∀ s ∈ shadowedTree.states, ∀ t ∈ s.transitions, ∀ token ∈ t.moves,
      token ∈ ["L", "<", "R", ">", "S", "-"] := by decide
  obtain ⟨hiff, hbuilt⟩ := build_is_exact shadowedTree hmoves
  have hok : (build shadowedTree).toOption.isSome := by decide +kernel
  obtain ⟨p, hp⟩ := Option.isSome_iff_exists.1 hok
  rw [toOption_eq_some_iff] at hp
  obtain ⟨hkeys, hstates⟩ := hbuilt p hp
  obtain ⟨u, hu, -, hsome, hnone⟩ := (hstates "s").2 _ rfl
  refine ⟨hmoves, hiff.1 ⟨p, hp⟩, p, u, hp, hkeys, hu, ?_, ?_, ?_⟩
  · exact (hsome _ _).2 ⟨_, rfl, Ast.Transition.lowers_iff.2 ⟨_, rfl, rfl⟩⟩
  · exact (hsome _ _).2 ⟨_, rfl, Ast.Transition.lowers_iff.2 ⟨_, rfl, rfl⟩⟩
  · exact (hnone _).2 rfl

end TapeLang
