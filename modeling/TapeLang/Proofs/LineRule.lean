import Mathlib
import TapeLang.Proofs.Pattern
import TapeLang.Proofs.Tree
import TapeLang.Source.LineRule

/-!
# What the rules of a line derive

For each rule, what its values are like and which piece of the text they come from. A list is treated
once, in `strewn_of_listOf`: its items are derived by pieces of the text, from left to right.
-/

namespace TapeLang.LineRule

open Pattern

variable {n : Nat} {s : List Char}

/-! ### Lists -/

section Lists

variable {α : Type} {item : Pattern α} {vs : List α}

theorem strewn_of_repeats (h : Repeats (comma.andThen item).Derives n s vs) :
    Strewn item.Derives n s vs := by
  induction h with
  | nil => exact .nil _ _
  | cons head _ ih =>
    obtain ⟨gap, piece, -, rfl, -, hitem⟩ := derives_andThen.1 head
    rw [List.length_append, ← Nat.add_assoc] at ih
    rw [List.append_assoc]
    exact .cons hitem ih

/-- The items of a list are derived by pieces of the text. -/
theorem strewn_of_listOf (h : (listOf item).Derives n s vs) : Strewn item.Derives n s vs := by
  obtain ⟨⟨w, ws⟩, ⟨s₁, s₂, rfl, hw, hws⟩, rfl⟩ := h
  have hfirst : Strewn item.Derives n ([] ++ (s₁ ++ s₂)) (w :: ws) := .cons hw (strewn_of_repeats hws)
  exact hfirst

/-- An optional list derives what the list derives, or nothing. -/
theorem strewn_of_optional
    (h : (Pattern.map (fun _ x => x.getD []) (.opt (listOf item))).Derives n s vs) :
    Strewn item.Derives n s vs := by
  obtain ⟨x, ⟨-, rfl⟩ | ⟨ws, hws, rfl⟩, rfl⟩ := h
  · exact .nil n s
  · exact strewn_of_listOf hws

theorem strewn_of_bracketed (h : (bracketed (listOf item)).Derives n s vs) :
    Strewn item.Derives n s vs := by
  obtain ⟨s₁, s₂, -, rfl, -, h₂⟩ := derives_andThen.1 h
  obtain ⟨s₃, s₄, -, rfl, -, h₄⟩ := derives_andThen.1 h₂
  obtain ⟨s₅, s₆, -, rfl, h₅, -⟩ := derives_andSkip.1 h₄
  exact .append_left s₁ (.append_left s₃ (.append_right s₆ (strewn_of_optional h₅)))

end Lists

/-! ### Symbols and moves -/

section Symbols

variable {here : Nat → Location} {row : List Ast.Symbol}

/-- A symbol stands in the text as it is spelled. -/
theorem source_of_symbol {v : Ast.Symbol} (h : (symbol here).Derives n s v) :
    s = v.spelling.source ∧ v.loc = here n ∧ v.spelling.IsSingle := by
  rcases h with ⟨c, h, rfl⟩ | ⟨c, ⟨rfl, hc⟩, rfl⟩ | ⟨c, ⟨rfl, hc⟩, rfl⟩
  · obtain ⟨s₁, s₂, x, rfl, ⟨rfl, hx⟩, h₂⟩ := derives_andThen.1 h
    obtain ⟨s₃, s₄, y, rfl, ⟨rfl, -⟩, rfl, hy⟩ := derives_andSkip.1 h₂
    rw [beq_iff_eq] at hx hy
    subst hx hy
    exact ⟨by simp [Ast.Spelling.source], rfl, Ast.Spelling.isSingle_quoted c⟩
  · rw [beq_iff_eq] at hc
    subst hc
    exact ⟨rfl, rfl, Ast.Spelling.isSingle_blank⟩
  · exact ⟨by simp [Ast.Spelling.source], rfl, Ast.Spelling.isSingle_bare c⟩

theorem strewn_of_tapeValue (h : (tapeValue here).Derives n s row) :
    Strewn (symbol here).Derives n s row := by
  obtain ⟨s₁, s₂, -, rfl, -, h₂⟩ := derives_andThen.1 h
  obtain ⟨s₃, s₄, -, rfl, h₃, -⟩ := derives_andSkip.1 h₂
  exact .append_left s₁ (.append_right s₄ (strewn_of_optional h₃))

theorem strewn_of_symbolVector (h : (symbolVector here).Derives n s row) :
    Strewn (symbol here).Derives n s row := strewn_of_bracketed h

theorem strewn_of_tapeRow (h : (tapeRow here).Derives n s row) :
    Strewn (symbol here).Derives n s row := by
  obtain ⟨s₁, s₂, -, rfl, h₁, -⟩ := derives_andSkip.1 h
  exact .append_right s₂ (strewn_of_symbolVector h₁)

theorem single_of_strewn (h : Strewn (symbol here).Derives n s row) : ∀ x ∈ row, x.spelling.IsSingle := by
  intro x hx
  obtain ⟨_, _, _, -, hsym⟩ := h.exists_piece hx
  exact (source_of_symbol hsym).2.2

theorem single_of_tapeValue (h : (tapeValue here).Derives n s row) : ∀ x ∈ row, x.spelling.IsSingle :=
  single_of_strewn (strewn_of_tapeValue h)

theorem single_of_tapeRow (h : (tapeRow here).Derives n s row) : ∀ x ∈ row, x.spelling.IsSingle :=
  single_of_strewn (strewn_of_tapeRow h)

theorem single_of_blankValue {x : Ast.Symbol} (h : (blankValue here).Derives n s x) :
    x.spelling.IsSingle := by
  obtain ⟨_, _, -, -, -, h₂⟩ := derives_andThen.1 h
  obtain ⟨_, _, -, -, h₃, -⟩ := derives_andSkip.1 h₂
  exact (source_of_symbol h₃).2.2

theorem ofText_of_direction {m : String} (h : direction.Derives n s m) :
    (Direction.ofText? m).isSome := by
  obtain ⟨c, ⟨-, hc⟩, rfl⟩ := h
  simp only [isDirection, Bool.or_eq_true, beq_iff_eq] at hc
  rcases hc with ((((rfl | rfl) | rfl) | rfl) | rfl) | rfl <;> rfl

/-! ### Transitions -/

/-- The symbols that a transition reads, and those that it writes. -/
theorem strewn_of_transition {t : Ast.Transition} (h : (transition here).Derives n s t) :
    Strewn (symbol here).Derives n s t.read ∧ ∀ w ∈ t.write, Strewn (symbol here).Derives n s w := by
  rcases h with h | h
  · obtain ⟨⟨read, write, moves, next⟩, ⟨s₁, s₂, rfl, hread, s₃, s₄, rfl, hwrite, -⟩, rfl⟩ := h
    refine ⟨.append_right _ (strewn_of_symbolVector hread), fun w hw => ?_⟩
    obtain ⟨-, rfl⟩ | ⟨x, hx, rfl⟩ := hwrite
    · cases hw
    · cases hw
      obtain ⟨s₅, s₆, -, rfl, -, hx⟩ := derives_andThen.1 hx
      exact .append_left s₁ (.append_right s₄ (.append_left s₅ (strewn_of_symbolVector hx)))
  · obtain ⟨⟨read, write, move, next⟩, ⟨s₁, s₂, rfl, hread, s₃, s₄, rfl, hwrite, -⟩, rfl⟩ := h
    refine ⟨.append_right _ (.singleton hread), fun w hw => ?_⟩
    obtain ⟨-, rfl⟩ | ⟨x, hx, rfl⟩ := hwrite
    · cases hw
    · cases hw
      obtain ⟨s₅, s₆, -, rfl, -, hx⟩ := derives_andThen.1 hx
      exact .append_left s₁ (.append_right s₄ (.append_left s₅ (.singleton hx)))

/-- The moves of a transition are written as moves. -/
theorem ofText_of_transition {t : Ast.Transition} (h : (transition here).Derives n s t) :
    ∀ m ∈ t.moves, (Direction.ofText? m).isSome := by
  rcases h with h | h
  · obtain ⟨⟨read, write, moves, next⟩, ⟨_, _, -, -, _, _, -, -, _, _, -, hmoves, -⟩, rfl⟩ := h
    intro m hm
    obtain ⟨_, _, -, -, -, hmoves⟩ := derives_andThen.1 hmoves
    obtain ⟨_, _, _, -, hdir⟩ := (strewn_of_bracketed hmoves).exists_piece hm
    exact ofText_of_direction hdir
  · obtain ⟨⟨read, write, move, next⟩, ⟨_, _, -, -, _, _, -, -, _, _, -, hmove, -⟩, rfl⟩ := h
    obtain ⟨_, _, -, -, -, hmove⟩ := derives_andThen.1 hmove
    exact List.forall_mem_singleton.2 (ofText_of_direction hmove)

theorem isSpelled_of_transition {t : Ast.Transition} (h : (transition here).Derives n s t) :
    t.IsSpelled where
  read := single_of_strewn (strewn_of_transition h).1
  write w hw := single_of_strewn ((strewn_of_transition h).2 w hw)
  moves := ofText_of_transition h

end Symbols

/-! ### Head positions -/

/-- A head position is a run of decimal digits, at least one. -/
structure IsIndex (ds : List Char) : Prop where
  ne_nil : ds ≠ []
  decimal : ∀ c ∈ ds, Text.isDecimal c = true

theorem isIndex_of_index {ds : List Char} (h : index.Derives n s ds) : s = ds ∧ IsIndex ds := by
  obtain ⟨⟨c, cs⟩, ⟨s₁, s₂, rfl, ⟨rfl, hc⟩, hs₂, hcs⟩, rfl⟩ := h
  refine ⟨congrArg (c :: ·) hs₂, List.cons_ne_nil c cs, ?_⟩
  exact List.forall_mem_cons.2 ⟨hc, hcs⟩

theorem isIndex_of_headValue {ds : List Char} (h : headValue.Derives n s ds) :
    ds <:+: s ∧ IsIndex ds := by
  obtain ⟨s₁, s₂, -, rfl, -, h₂⟩ := derives_andThen.1 h
  obtain ⟨s₃, s₄, -, rfl, h₃, -⟩ := derives_andSkip.1 h₂
  obtain ⟨rfl, hds⟩ := isIndex_of_index h₃
  exact ⟨⟨s₁, s₄, by simp⟩, hds⟩

theorem isIndex_of_headsValue {dss : List (List Char)} (h : headsValue.Derives n s dss)
    {ds : List Char} (hds : ds ∈ dss) : ds <:+: s ∧ IsIndex ds := by
  obtain ⟨s₁, s₂, -, rfl, -, h₂⟩ := derives_andThen.1 h
  obtain ⟨s₃, s₄, -, rfl, h₃, -⟩ := derives_andSkip.1 h₂
  obtain ⟨before, t, after, rfl, hitem⟩ := (strewn_of_bracketed h₃).exists_piece hds
  obtain ⟨rfl, hds⟩ := isIndex_of_index hitem
  exact ⟨⟨s₁ ++ before, after ++ s₄, by simp⟩, hds⟩

end TapeLang.LineRule
