import Mathlib
import TapeLang.Proofs.Pattern
import TapeLang.Proofs.Tree
import TapeLang.Source.LineRule

/-!
# Reading in another place

The patterns of a line take the map from positions to locations as a parameter. What they match does not
depend on it, and the values differ only in their locations.

* `Ast.Program.relocate`, with one definition for each kind of node: a tree whose locations are moved;
* `Pattern.Relabels`: a pattern that matches like another, with values that are mapped, with one lemma for
  each way of forming patterns;
* `LineRule.relabels_transition` and its like: the rules of a line in another place.
-/

namespace TapeLang

/-! ### Trees with other locations -/

namespace Ast

section Relocate

variable (τ : Location → Location)

/-- A symbol whose location is moved by `τ`. -/
def Symbol.relocate (s : Symbol) : Symbol := { s with loc := τ s.loc }

/-- A transition whose locations are moved by `τ`. -/
def Transition.relocate (t : Transition) : Transition :=
  { t with
    read := t.read.map (Symbol.relocate τ)
    write := t.write.map (List.map (Symbol.relocate τ))
    loc := τ t.loc }

/-- A state whose locations are moved by `τ`. -/
def State.relocate (s : State) : State :=
  { s with transitions := s.transitions.map (Transition.relocate τ), loc := τ s.loc }

/-- A declaration of tapes whose locations are moved by `τ`. -/
def TapeDecl.relocate (d : TapeDecl) : TapeDecl :=
  { d with rows := d.rows.map (List.map (Symbol.relocate τ)), loc := τ d.loc }

/-- The name of a program, with its location moved by `τ`. -/
def NameDecl.relocate (d : NameDecl) : NameDecl := { d with loc := τ d.loc }

/-- A declaration of heads whose location is moved by `τ`. -/
def HeadDecl.relocate (d : HeadDecl) : HeadDecl := { d with loc := τ d.loc }

/-- A declaration of the blank symbol whose location is moved by `τ`. -/
def BlankDecl.relocate (d : BlankDecl) : BlankDecl := { d with loc := τ d.loc }

/-- A tree whose locations are moved by `τ`. -/
def Program.relocate (p : Program) : Program :=
  { p with
    tape := p.tape.relocate τ
    states := p.states.map (State.relocate τ)
    name := p.name.map (NameDecl.relocate τ)
    head := p.head.map (HeadDecl.relocate τ)
    blank := p.blank.map (BlankDecl.relocate τ) }

/-! Without the locations it does not matter how they have been moved. -/

theorem Symbol.unlocated_relocate : Symbol.unlocated ∘ Symbol.relocate τ = Symbol.unlocated := rfl

theorem Transition.unlocated_relocate :
    Transition.unlocated ∘ Transition.relocate τ = Transition.unlocated := by
  funext t
  simp only [Function.comp_apply, Transition.unlocated, Transition.relocate, List.map_map,
    Option.map_map, List.map_comp_map, Symbol.unlocated_relocate]

theorem State.unlocated_relocate : State.unlocated ∘ State.relocate τ = State.unlocated := by
  funext s
  simp only [Function.comp_apply, State.unlocated, State.relocate, List.map_map,
    Transition.unlocated_relocate]

theorem TapeDecl.unlocated_relocate (d : TapeDecl) : (d.relocate τ).unlocated = d.unlocated := by
  simp only [TapeDecl.unlocated, TapeDecl.relocate, List.map_map, List.map_comp_map,
    Symbol.unlocated_relocate]

theorem Program.unlocated_relocate (p : Program) : (p.relocate τ).unlocated = p.unlocated := by
  simp only [Program.unlocated, Program.relocate, TapeDecl.unlocated_relocate, List.map_map,
    State.unlocated_relocate, Option.map_map]
  rfl

end Relocate

/-! Locations that stay where they are. -/

theorem Symbol.relocate_id : Symbol.relocate id = id := rfl

theorem Transition.relocate_id : Transition.relocate id = id := by
  funext t
  simp [Transition.relocate, Symbol.relocate_id]

theorem State.relocate_id : State.relocate id = id := by
  funext s
  simp [State.relocate, Transition.relocate_id]

theorem Program.relocate_id (p : Program) : p.relocate id = p := by
  have htape : p.tape.relocate id = p.tape := by simp [TapeDecl.relocate, Symbol.relocate_id]
  have hname : NameDecl.relocate id = id := rfl
  have hhead : HeadDecl.relocate id = id := rfl
  have hblank : BlankDecl.relocate id = id := rfl
  simp [Program.relocate, htape, hname, hhead, hblank, State.relocate_id]

end Ast

/-! ### Patterns with other values -/

/-- The match with another value. -/
def Match.map {α β : Type} (f : α → β) (m : Match α) : Match β := ⟨f m.value, m.stop, m.rest⟩

namespace Pattern

variable {α β γ δ : Type}

/-- The pattern `b` matches and fails where `a` does, and its values are those of `a`, mapped by `f`. -/
structure Relabels (f : α → β) (a : Pattern α) (b : Pattern β) : Prop where
  value : ∀ n s, b.match? n s = (a.match? n s).map (Match.map f)
  failures : ∀ n s, b.failures n s = a.failures n s

namespace Relabels

variable {f : α → β} {g : γ → δ} {a : Pattern α} {a' : Pattern β} {b : Pattern γ} {b' : Pattern δ}

theorem refl (a : Pattern α) : Relabels id a a := by
  refine ⟨fun n s => ?_, fun _ _ => rfl⟩
  cases a.match? n s <;> rfl

theorem isSome_eq (h : Relabels f a a') (n : Nat) (s : List Char) :
    (a'.match? n s).isSome = (a.match? n s).isSome := by
  rw [h.value, Option.isSome_map]

/-- Another way of computing the values. -/
theorem map (h : Relabels f a a') {F : Nat → α → γ} {F' : Nat → β → δ}
    (hF : ∀ n x, F' n (f x) = g (F n x)) : Relabels g (.map F a) (.map F' a') := by
  refine ⟨fun n s => ?_, h.failures⟩
  rw [match?_map, match?_map, h.value]
  cases a.match? n s with
  | none => rfl
  | some m => simp [Match.map, hF]

theorem seq (ha : Relabels f a a') (hb : Relabels g b b') :
    Relabels (Prod.map f g) (.seq a b) (.seq a' b') := by
  refine ⟨fun n s => ?_, fun n s => ?_⟩
  · rw [match?_seq, match?_seq, ha.value]
    cases a.match? n s with
    | none => rfl
    | some m =>
      simp only [Option.map_some, Match.map, hb.value]
      cases b.match? m.stop m.rest <;> rfl
  · simp only [Pattern.failures, ha.failures, ha.value]
    cases a.match? n s with
    | none => rfl
    | some m => simp [Match.map, hb.failures]

theorem alt {b : Pattern α} {b' : Pattern β} (ha : Relabels f a a') (hb : Relabels f b b') :
    Relabels f (.alt a b) (.alt a' b') := by
  refine ⟨fun n s => ?_, fun n s => ?_⟩
  · rw [match?_alt, match?_alt, ha.value]
    cases a.match? n s with
    | none => exact hb.value n s
    | some m => rfl
  · simp only [Pattern.failures, ha.failures, ha.value]
    cases a.match? n s with
    | none => simp [hb.failures]
    | some m => rfl

theorem opt (h : Relabels f a a') : Relabels (Option.map f) (.opt a) (.opt a') := by
  refine ⟨fun n s => ?_, fun n s => ?_⟩
  · rw [match?_opt, match?_opt, h.value]
    split
    · rfl
    · cases a.match? n s <;> rfl
  · simp only [Pattern.failures, h.failures]

theorem matchAll_map {m : Nat → List Char → Option (Match α)} {m' : Nat → List Char → Option (Match β)}
    (h : ∀ n s, m' n s = (m n s).map (Match.map f)) (fuel n : Nat) (s : List Char) :
    matchAll m' fuel n s = (matchAll m fuel n s).map (List.map f) := by
  induction fuel generalizing n s with
  | zero => rfl
  | succ fuel ih =>
    unfold matchAll
    rw [h]
    split
    · rfl
    · cases m n s with
      | none => rfl
      | some k =>
        simp only [Option.map_some, Match.map]
        split
        · rfl
        · rw [ih]
          rfl

theorem failuresAll_map {m : Nat → List Char → Option (Match α)}
    {m' : Nat → List Char → Option (Match β)} {e e' : Nat → List Char → List Failure}
    (h : ∀ n s, m' n s = (m n s).map (Match.map f)) (he : ∀ n s, e' n s = e n s) (fuel n : Nat)
    (s : List Char) : failuresAll m' e' fuel n s = failuresAll m e fuel n s := by
  induction fuel generalizing n s with
  | zero => rfl
  | succ fuel ih =>
    unfold failuresAll
    rw [h, he]
    cases m n s with
    | none => rfl
    | some k => simp only [Option.map_some, Match.map, ih]

theorem many (h : Relabels f a a') : Relabels (List.map f) (.many a) (.many a') := by
  refine ⟨fun n s => ?_, fun n s => ?_⟩
  · rw [match?_many, match?_many, Option.map_some, matchAll_map h.value]
  · exact failuresAll_map h.value h.failures s.length n s

theorem token (h : Relabels f a a') : Relabels f (.token a) (.token a') := by
  refine ⟨h.value, fun n s => ?_⟩
  simp only [Pattern.failures, failureUnless, h.isSome_eq]

theorem rule (h : Relabels f a a') : Relabels f (.rule a) (.rule a') := by
  refine ⟨h.value, fun n s => ?_⟩
  simp only [Pattern.failures, failureUnless, h.isSome_eq, h.failures]

theorem andThen (ha : Relabels f a a') (hb : Relabels g b b') :
    Relabels g (a.andThen b) (a'.andThen b') :=
  (ha.seq hb).map fun _ _ => rfl

theorem andSkip (ha : Relabels f a a') (hb : Relabels g b b') :
    Relabels f (a.andSkip b) (a'.andSkip b') :=
  (ha.seq hb).map fun _ _ => rfl

/-- A whole text has the mapped value, or the same place to report. -/
theorem parse (h : Relabels f a a') (s : List Char) : a'.parse s = (a.parse s).map f := by
  unfold Pattern.parse
  rw [h.value, h.failures]
  cases a.match? 0 s with
  | none => rfl
  | some m =>
    simp only [Option.map_some, Match.map]
    split <;> rfl

end Relabels

end Pattern

/-! ### The rules of a line -/

namespace LineRule

open Pattern

variable (τ : Location → Location) (here : Nat → Location)

theorem relabels_listOf {α β : Type} {f : α → β} {a : Pattern α} {b : Pattern β}
    (h : Relabels f a b) : Relabels (List.map f) (listOf a) (listOf b) :=
  .rule (.map (h.seq ((Relabels.refl comma).andThen h).many) fun _ _ => rfl)

/-- An optional list, where none is the empty one. -/
theorem relabels_optional {α β : Type} {f : α → β} {a : Pattern (List α)} {b : Pattern (List β)}
    (h : Relabels (List.map f) a b) :
    Relabels (List.map f) (.map (fun _ x => x.getD []) (.opt a)) (.map (fun _ x => x.getD []) (.opt b)) :=
  h.opt.map fun _ x => by cases x <;> rfl

theorem relabels_bracketed {α β : Type} {f : α → β} {a : Pattern (List α)} {b : Pattern (List β)}
    (h : Relabels (List.map f) a b) : Relabels (List.map f) (bracketed a) (bracketed b) :=
  (Relabels.refl _).andThen ((Relabels.refl _).andThen ((relabels_optional h).andSkip (.refl _)))

theorem relabels_symbol :
    Relabels (Ast.Symbol.relocate τ) (symbol here) (symbol (τ ∘ here)) := by
  have hquoted : Relabels (Ast.Symbol.relocate τ) (quotedSymbol here) (quotedSymbol (τ ∘ here)) :=
    .rule (.map (.refl _) fun _ _ => rfl)
  have hblank : Relabels (Ast.Symbol.relocate τ) (blankAlias here) (blankAlias (τ ∘ here)) :=
    .rule (.map (.refl _) fun _ _ => rfl)
  have hbare : Relabels (Ast.Symbol.relocate τ) (bareSymbol here) (bareSymbol (τ ∘ here)) :=
    .rule (.map (.refl _) fun _ _ => rfl)
  exact (hquoted.alt (hblank.alt hbare)).rule

theorem relabels_symbolVector :
    Relabels (List.map (Ast.Symbol.relocate τ)) (symbolVector here) (symbolVector (τ ∘ here)) :=
  (relabels_bracketed (relabels_listOf (relabels_symbol τ here))).rule

theorem relabels_tapeRow :
    Relabels (List.map (Ast.Symbol.relocate τ)) (tapeRow here) (tapeRow (τ ∘ here)) :=
  ((relabels_symbolVector τ here).andSkip (.refl _)).rule

theorem relabels_tapeValue :
    Relabels (List.map (Ast.Symbol.relocate τ)) (tapeValue here) (tapeValue (τ ∘ here)) := by
  have hlist := relabels_optional (relabels_listOf (relabels_symbol τ here))
  exact ((Relabels.refl _).andThen (hlist.andSkip (.refl _))).rule

theorem relabels_blankValue :
    Relabels (Ast.Symbol.relocate τ) (blankValue here) (blankValue (τ ∘ here)) :=
  ((Relabels.refl _).andThen ((relabels_symbol τ here).andSkip (.refl _))).rule

theorem relabels_transition :
    Relabels (Ast.Transition.relocate τ) (transition here) (transition (τ ∘ here)) := by
  have hsymbol := relabels_symbol τ here
  have hvector := relabels_symbolVector τ here
  have hmulti : Relabels (Ast.Transition.relocate τ) (multiTransition here)
      (multiTransition (τ ∘ here)) := by
    have hwrite := ((Relabels.refl arrow).andThen hvector).rule.opt
    exact .rule (.map (hvector.seq (hwrite.seq (.refl _))) fun _ _ => rfl)
  have hsingle : Relabels (Ast.Transition.relocate τ) (singleTransition here)
      (singleTransition (τ ∘ here)) := by
    have hwrite := ((Relabels.refl arrow).andThen hsymbol).rule.opt
    refine .rule (.map (hsymbol.seq (hwrite.seq (.refl _))) fun n x => ?_)
    obtain ⟨read, write, rest⟩ := x
    cases write <;> rfl
  exact (hmulti.alt hsingle).rule

end LineRule

end TapeLang
