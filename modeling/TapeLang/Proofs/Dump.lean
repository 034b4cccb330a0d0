import Mathlib
import TapeLang.Ast.Dump
import TapeLang.Proofs.Quoting
import TapeLang.Proofs.Tree

/-!
# What a summary tells about a program

The summary of a tree leaves out most places, the quotes of its symbols and the forms of its lines. What is
left determines the tree up to these, and building does not look at them. So trees with the same summary give
the same program, or are refused for the same reason.

* `Transition.unlocated`, `State.unlocated`, `Program.unlocated`, `BuildError.unlocated`: what building gives,
  without places;
* `Ast.Program.plain`: a tree without places, quotes and forms;
* `build_plain`: building a plain tree is building the tree and forgetting the places;
* `Ast.Spelling.summary_eq_iff`: the symbols that a summary tells apart;
* `Ast.Program.plain_factorsThrough_toJson`: a summary determines the plain tree;
* `dump_is_faithful`: the programs of trees with the same summary.
-/

namespace TapeLang

/-! ### Changing the values of a table -/

namespace Table

universe u v w

variable {κ : Type u} {α : Type v} {β : Type w} (f : α → β)

/-- The table with `f` applied to every value. -/
def mapValues (t : Table κ α) : Table κ β where
  entries := t.entries.map (Prod.map id f)
  nodup := by simpa [Function.comp_def] using t.nodup

variable [DecidableEq κ]

theorem find?_mapValues (t : Table κ α) (k : κ) : (t.mapValues f).find? k = (t.find? k).map f := by
  simp only [find?, mapValues, List.find?_map, Option.map_map]
  rfl

theorem putEntry_map (k : κ) (a : α) (es : List (κ × α)) :
    putEntry k (f a) (es.map (Prod.map id f)) = (putEntry k a es).map (Prod.map id f) := by
  induction es with
  | nil => rfl
  | cons e es ih =>
    by_cases h : e.1 = k
    · simp [putEntry, h]
    · simp [putEntry, h, ih]

theorem mapValues_insert (t : Table κ α) (k : κ) (a : α) :
    (t.insert k a).mapValues f = (t.mapValues f).insert k (f a) := by
  simp only [insert, mapValues, putEntry_map]

end Table

/-! ### Programs and errors without places -/

/-- A transition without its place. -/
def Transition.unlocated (t : Transition) : Transition := { t with loc := {} }

/-- A state without its place and those of its transitions. -/
def State.unlocated (s : State) : State :=
  { s with transitions := s.transitions.mapValues Transition.unlocated, loc := {} }

/-- A program without the places of its parts and without the name of its source. -/
def Program.unlocated (p : Program) : Program :=
  { p with states := p.states.mapValues State.unlocated, sourcePath := none }

/-- The cause of an error without the places that it names. -/
def BuildError.unlocated : BuildError → BuildError
  | .noTapes _ => .noTapes {}
  | .headCount arity found _ => .headCount arity found {}
  | .noStates _ => .noStates none
  | .vectorLength state part length arity _ => .vectorLength state part length arity {}
  | .repeatedRead state read _ _ => .repeatedRead state read 0 {}
  | .unknownDirection token => .unknownDirection token

/-- The outcome of building without places; `f` forgets those of the result. -/
def Outcome.unlocated {α β : Type} (f : α → β) : Except BuildError α → Except BuildError β
  | .ok a => .ok (f a)
  | .error e => .error e.unlocated

/-- Places are forgotten step by step. -/
theorem Outcome.unlocated_bind {α β γ δ : Type} {f : α → γ} {g : β → δ} {x : Except BuildError α}
    {y : Except BuildError γ} {k : α → Except BuildError β} {k' : γ → Except BuildError δ}
    (hx : y = Outcome.unlocated f x) (hk : ∀ a, k' (f a) = Outcome.unlocated g (k a)) :
    y >>= k' = Outcome.unlocated g (x >>= k) := by
  subst hx
  cases x with
  | error e => rfl
  | ok a => exact hk a

/-- Outcomes that agree without places are both refusals for the same cause, or both results. -/
theorem Outcome.or_of_unlocated_eq {α β : Type} {f : α → β} {x y : Except BuildError α}
    (h : Outcome.unlocated f x = Outcome.unlocated f y) :
    (∃ e e', x = .error e ∧ y = .error e' ∧ e.unlocated = e'.unlocated) ∨
      ∃ a a', x = .ok a ∧ y = .ok a' ∧ f a = f a' := by
  cases x with
  | error e =>
    cases y with
    | error e' => exact .inl ⟨e, e', rfl, rfl, Except.error.inj h⟩
    | ok a' => cases h
  | ok a =>
    cases y with
    | error e' => cases h
    | ok a' => exact .inr ⟨a, a', rfl, rfl, Except.ok.inj h⟩

namespace Ast

/-! ### Plain trees -/

/-- The spelling without quotes. -/
def Spelling.unquoted : Spelling → Spelling
  | .quoted value => .bare value
  | s => s

/-- A symbol without its place and its quotes. -/
def Symbol.plain (s : Symbol) : Symbol := { spelling := s.spelling.unquoted }

/-- A transition without places, quotes and form. -/
def Transition.plain (t : Transition) : Transition where
  read := t.read.map Symbol.plain
  write := t.write.map (List.map Symbol.plain)
  moves := t.moves
  next := t.next

/-- A state with plain transitions. -/
def State.plain (s : State) : State where
  name := s.name
  transitions := s.transitions.map Transition.plain

/-- A declaration of tapes without places and quotes. -/
def TapeDecl.plain (d : TapeDecl) : TapeDecl where
  rows := d.rows.map (List.map Symbol.plain)
  multi := d.multi

/-- A declaration of heads without its place and form. -/
def HeadDecl.plain (d : HeadDecl) : HeadDecl where
  positions := d.positions

/-- A tree without places and quotes, and without the forms of its transitions and heads. -/
def Program.plain (p : Program) : Program where
  tape := p.tape.plain
  states := p.states.map State.plain
  name := p.name.map NameDecl.unlocated
  head := p.head.map HeadDecl.plain
  blank := p.blank.map BlankDecl.unlocated

/-! ### Building plain trees -/

section Build

variable (blank : TapeLang.Symbol) (arity : Nat) (state : String)

theorem Symbol.resolve_plain (s : Symbol) : s.plain.resolve blank = s.resolve blank := by
  obtain ⟨spelling, loc⟩ := s
  cases spelling <;> rfl

theorem resolveAll_plain (row : List Symbol) :
    resolveAll blank (row.map Symbol.plain) = resolveAll blank row := by
  simp [resolveAll, Symbol.resolve_plain]

/-- An error in the moves names no place. -/
theorem directions_unlocated (tokens : List String) :
    directions tokens = Outcome.unlocated id (directions tokens) := by
  induction tokens with
  | nil => rfl
  | cons token tokens ih =>
    unfold directions
    split
    · rfl
    · exact Outcome.unlocated_bind ih fun ds => rfl

theorem Transition.build_plain (t : Transition) :
    t.plain.build blank arity state =
      Outcome.unlocated TapeLang.Transition.unlocated (t.build blank arity state) := by
  have hread : resolveAll blank t.plain.read = resolveAll blank t.read := resolveAll_plain blank t.read
  have hwrite : t.plain.write.map (resolveAll blank) = t.write.map (resolveAll blank) := by
    simp [Transition.plain, Function.comp_def, resolveAll_plain]
  unfold Transition.build
  rw [hread, hwrite]
  refine Outcome.unlocated_bind (directions_unlocated t.moves) fun move => ?_
  simp only [id]
  split_ifs <;> rfl

theorem buildTransitions_plain (nodes : List Transition)
    (table : Table (List TapeLang.Symbol) TapeLang.Transition) :
    buildTransitions blank arity state (nodes.map Transition.plain)
        (table.mapValues TapeLang.Transition.unlocated) =
      Outcome.unlocated (Table.mapValues TapeLang.Transition.unlocated)
        (buildTransitions blank arity state nodes table) := by
  induction nodes generalizing table with
  | nil => rfl
  | cons node nodes ih =>
    refine Outcome.unlocated_bind (node.build_plain blank arity state) fun t => ?_
    have hread : t.unlocated.read = t.read := rfl
    rw [hread, Table.find?_mapValues]
    cases table.find? t.read with
    | some earlier => rfl
    | none =>
      have hrest := ih (table.insert t.read t)
      rw [Table.mapValues_insert] at hrest
      exact hrest

theorem State.build_plain (s : State) :
    s.plain.build blank arity = Outcome.unlocated TapeLang.State.unlocated (s.build blank arity) :=
  Outcome.unlocated_bind (buildTransitions_plain blank arity s.name s.transitions .empty) fun _ => rfl

theorem buildStates_plain (nodes : List State) (table : Table String TapeLang.State) :
    buildStates blank arity (nodes.map State.plain) (table.mapValues TapeLang.State.unlocated) =
      Outcome.unlocated (Table.mapValues TapeLang.State.unlocated)
        (buildStates blank arity nodes table) := by
  induction nodes generalizing table with
  | nil => rfl
  | cons node nodes ih =>
    refine Outcome.unlocated_bind (node.build_plain blank arity) fun s => ?_
    have hrest := ih (table.insert node.name s)
    rw [Table.mapValues_insert] at hrest
    exact hrest

end Build

end Ast

/-- **Building a plain tree is building the tree and forgetting the places.** -/
theorem build_plain (tree : Ast.Program) :
    build tree.plain = Outcome.unlocated Program.unlocated (build tree) := by
  have harity : tree.plain.tape.arity = tree.tape.arity := by
    simp [Ast.Program.plain, Ast.TapeDecl.plain, Ast.TapeDecl.arity]
  have hname : tree.plain.name.map Ast.NameDecl.text = tree.name.map Ast.NameDecl.text := by
    simp [Ast.Program.plain, Function.comp_def, Ast.NameDecl.unlocated]
  have hblank : tree.plain.blank.map Ast.BlankDecl.symbol = tree.blank.map Ast.BlankDecl.symbol := by
    simp [Ast.Program.plain, Function.comp_def, Ast.BlankDecl.unlocated]
  have hheads : tree.plain.head.map Ast.HeadDecl.positions = tree.head.map Ast.HeadDecl.positions := by
    simp [Ast.Program.plain, Function.comp_def, Ast.HeadDecl.plain]
  have hloc : (tree.plain.head.map Ast.HeadDecl.loc).getD {} = {} := by
    cases h : tree.head <;> simp [Ast.Program.plain, h, Ast.HeadDecl.plain]
  have hrows : ∀ blank, tree.plain.tape.rows.map (Ast.resolveAll blank) =
      tree.tape.rows.map (Ast.resolveAll blank) := by
    intro blank
    simp [Ast.Program.plain, Ast.TapeDecl.plain, Function.comp_def, Ast.resolveAll_plain]
  have hstates : tree.plain.states = tree.states.map Ast.State.plain := rfl
  unfold build
  simp only [harity, hname, hblank, hheads, hloc, hrows, hstates]
  split_ifs with hzero hlength
  · rfl
  · rfl
  · cases h : tree.states with
    | nil => rfl
    | cons first rest =>
      exact Outcome.unlocated_bind (Ast.buildStates_plain _ _ (first :: rest) .empty) fun _ => rfl

/-! ### Reading a summary -/

/-- What factors through a function factors through it item by item. -/
theorem map_factorsThrough {α β γ : Type} {f : α → γ} {g : α → β} (h : f.FactorsThrough g) :
    (List.map f).FactorsThrough (List.map g) := by
  intro as
  induction as with
  | nil =>
    intro as' heq
    rw [List.map_nil, eq_comm, List.map_eq_nil_iff] at heq
    rw [heq]
  | cons a as ih =>
    intro as' heq
    obtain ⟨a', as'', rfl, ha, has⟩ := List.map_eq_cons_iff.mp heq.symm
    rw [List.map_cons, List.map_cons, h ha, ih has.symm]

/-- A summary that is never null tells whether there is something to show. -/
theorem Json.map_factorsThrough_ofOption {α γ : Type} {f : α → γ} {g : α → Json}
    (hnull : ∀ a, g a ≠ .null) (h : f.FactorsThrough g) :
    (Option.map f).FactorsThrough (Json.ofOption g) := by
  intro x y heq
  cases x with
  | none =>
    cases y with
    | none => rfl
    | some b => exact absurd heq.symm (hnull b)
  | some a =>
    cases y with
    | none => exact absurd heq (hnull a)
    | some b => exact congrArg some (h heq)

theorem Json.strs_injective : Function.Injective Json.strs := by
  intro xs ys h
  have hstr : Function.Injective Json.str := fun x y => Json.str.inj
  exact List.map_injective_iff.mpr hstr (Json.arr.inj h)

namespace Ast

/-- **A summary tells symbols apart:** the blank symbol from every other, and those by their texts. -/
theorem Spelling.summary_eq_iff {s s' : Spelling} :
    s.summary = s'.summary ↔ s.isBlank = s'.isBlank ∧ s.value = s'.value := by
  cases s <;> cases s' <;>
    simp [summary, isBlank, value, resolve, Text.quoted_ne_underscore, Ne.symm (Text.quoted_ne_underscore _),
      Text.quoted_injective.eq_iff]

theorem Symbol.plain_factorsThrough_summary :
    Symbol.plain.FactorsThrough fun s : Symbol => s.spelling.summary := by
  intro s s' h
  obtain ⟨hblank, hvalue⟩ := Spelling.summary_eq_iff.mp h
  have hspelling : ∀ spelling : Spelling,
      spelling.unquoted = if spelling.isBlank then .blank else .bare spelling.value := by
    intro spelling
    cases spelling <;> rfl
  rw [Symbol.plain, Symbol.plain, hspelling, hspelling, hblank, hvalue]

theorem plain_factorsThrough_symbolsJson : (List.map Symbol.plain).FactorsThrough symbolsJson := by
  intro row row' h
  exact map_factorsThrough Symbol.plain_factorsThrough_summary (Json.strs_injective h)

theorem Transition.plain_factorsThrough_toJson : Transition.plain.FactorsThrough Transition.toJson := by
  intro t t' h
  simp only [Transition.toJson, Json.obj.injEq, List.cons.injEq, Prod.mk.injEq, true_and, and_true] at h
  obtain ⟨hread, hwrite, hmoves, hnext, -⟩ := h
  have hread := plain_factorsThrough_symbolsJson hread
  have hwrite := Json.map_factorsThrough_ofOption (by intro _; nofun) plain_factorsThrough_symbolsJson hwrite
  simp only [Transition.plain, hread, hwrite, Json.strs_injective hmoves, Json.str.inj hnext]

theorem State.plain_factorsThrough_toJson : State.plain.FactorsThrough State.toJson := by
  intro s s' h
  simp only [State.toJson, Json.obj.injEq, List.cons.injEq, Prod.mk.injEq, true_and, and_true] at h
  obtain ⟨hname, -, htransitions⟩ := h
  have htransitions :=
    map_factorsThrough Transition.plain_factorsThrough_toJson (Json.arr.inj htransitions)
  simp only [State.plain, htransitions, Json.str.inj hname]

/-- **A summary determines the plain tree.** -/
theorem Program.plain_factorsThrough_toJson : Program.plain.FactorsThrough Program.toJson := by
  intro p p' h
  simp only [Program.toJson, Json.obj.injEq, List.cons.injEq, Prod.mk.injEq, true_and, and_true] at h
  obtain ⟨hname, htapes, hmulti, hheads, hblank, hstates⟩ := h
  have hname : p.name.map NameDecl.unlocated = p'.name.map NameDecl.unlocated := by
    refine Json.map_factorsThrough_ofOption (by intro _; nofun) ?_ hname
    intro d d' hd
    rw [NameDecl.unlocated, NameDecl.unlocated, Json.str.inj hd]
  have hblank : p.blank.map BlankDecl.unlocated = p'.blank.map BlankDecl.unlocated := by
    refine Json.map_factorsThrough_ofOption (by intro _; nofun) ?_ hblank
    intro d d' hd
    rw [BlankDecl.unlocated, BlankDecl.unlocated, Json.str.inj hd]
  have hheads : p.head.map HeadDecl.plain = p'.head.map HeadDecl.plain := by
    refine Json.map_factorsThrough_ofOption (by intro _; nofun) ?_ hheads
    intro d d' hd
    have hint : Function.Injective Json.int := fun _ _ => Json.int.inj
    rw [HeadDecl.plain, HeadDecl.plain, List.map_injective_iff.mpr hint (Json.arr.inj hd)]
  have hrows := map_factorsThrough plain_factorsThrough_symbolsJson (Json.arr.inj htapes)
  have hstates := map_factorsThrough State.plain_factorsThrough_toJson (Json.arr.inj hstates)
  simp only [Program.plain, TapeDecl.plain, hname, hblank, hheads, hrows, hstates, Json.bool.inj hmulti]

end Ast

/-! ### Faithfulness -/

/-- **The summary is faithful.** Of two trees with the same summary, both are refused for the same cause, or
both give programs that differ in nothing but places and the names of their sources. In every summary the
blank symbol differs from a literal underscore, and different symbols differ. -/
theorem dump_is_faithful (tree tree' : Ast.Program) (h : tree.toJson = tree'.toJson) :
    ((∃ e e', build tree = .error e ∧ build tree' = .error e' ∧ e.unlocated = e'.unlocated) ∨
      ∃ p p', build tree = .ok p ∧ build tree' = .ok p' ∧ p.unlocated = p'.unlocated) ∧
    ∀ s s' : Ast.Spelling, s.summary = s'.summary ↔ s.isBlank = s'.isBlank ∧ s.value = s'.value := by
  refine ⟨Outcome.or_of_unlocated_eq ?_, fun s s' => Ast.Spelling.summary_eq_iff⟩
  rw [← build_plain, ← build_plain, Ast.Program.plain_factorsThrough_toJson h]

/-- A tree on the blank symbol, a literal underscore and a soft hyphen, which stand at `loc` and are written
by `spell`. Its transitions differ only in whether they read the blank symbol or the underscore. -/
def underscored (spell : String → Ast.Spelling) (loc : Location) : Ast.Program where
  tape := { rows := [[⟨.blank, loc⟩, ⟨spell "_", loc⟩, ⟨spell "\u00ad", loc⟩]], loc := loc }
  states := [{
    name := "scan"
    transitions := [
      { read := [⟨.blank, loc⟩], write := none, moves := [">"], next := "scan", loc := loc },
      { read := [⟨spell "_", loc⟩], write := none, moves := [">"], next := "scan", loc := loc }]
    loc := loc }]
  sourcePath := some loc.file

/-- With and without quotes, in different columns of different files, it is the same program. -/
theorem dump_is_faithful_underscored :
    (underscored .bare ⟨"a.tm", 3, 1⟩).toJson = (underscored .quoted ⟨"b.tm", 3, 7⟩).toJson ∧
    underscored .bare ⟨"a.tm", 3, 1⟩ ≠ underscored .quoted ⟨"b.tm", 3, 7⟩ ∧
    (∃ p p', build (underscored .bare ⟨"a.tm", 3, 1⟩) = .ok p ∧
      build (underscored .quoted ⟨"b.tm", 3, 7⟩) = .ok p' ∧ p.unlocated = p'.unlocated) ∧
    (Ast.Spelling.blank).summary ≠ (Ast.Spelling.quoted "_").summary := by
  have hdump : (underscored .bare ⟨"a.tm", 3, 1⟩).toJson = (underscored .quoted ⟨"b.tm", 3, 7⟩).toJson := rfl
  obtain ⟨hbuild, hsymbols⟩ := dump_is_faithful _ _ hdump
  refine ⟨hdump, by decide, ?_, ?_⟩
  · rcases hbuild with ⟨e, e', he, -, -⟩ | hok
    · have hsome : (build (underscored .bare ⟨"a.tm", 3, 1⟩)).toOption.isSome = true := by decide +kernel
      rw [he] at hsome
      cases hsome
    · exact hok
  · intro h
    exact absurd ((hsymbols _ _).mp h).1 (by decide)

end TapeLang
