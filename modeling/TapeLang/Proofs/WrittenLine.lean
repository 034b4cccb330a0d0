import Mathlib
import TapeLang.Proofs.Content
import TapeLang.Proofs.Phrase

/-!
# Every written line is the content of a line

What is written for a part of a tree has no line break, starts no comment, and neither begins nor ends
with a space, so that it is found again as it stands.

* `Solid`: a text that does not end with a space;
* `Ast.isContent_directive`, `Ast.isContent_name`: the lines outside the blocks;
* `Ast.isContent_row`, `Ast.isContent_header`, `Ast.isContent_transition`: the lines of the blocks.
-/

namespace TapeLang

/-- The text does not end with a space. -/
def Solid (t : List Char) : Prop := ∀ c ∈ t.getLast?, Text.isSpace c = false

theorem solid_of_forall {t : List Char} (h : ∀ c ∈ t, Text.isSpace c = false) : Solid t :=
  fun c hc => h c (List.mem_of_getLast? hc)

theorem solid_singleton {c : Char} (h : Text.isSpace c = false) : Solid [c] :=
  solid_of_forall (List.forall_mem_singleton.2 h)

/-- What comes before a text that is not empty does not matter. -/
theorem Solid.append_left {t : List Char} (h : Solid t) (hne : t ≠ []) (s : List Char) :
    Solid (s ++ t) := by
  intro c hc
  rw [List.getLast?_append_of_ne_nil _ hne] at hc
  exact h c hc

theorem Solid.append {s t : List Char} (hs : Solid s) (ht : Solid t) : Solid (s ++ t) := by
  by_cases hne : t = []
  · rw [hne, List.append_nil]
    exact hs
  · exact ht.append_left hne s

namespace Ast

/-! ### The parts of a line -/

theorem inline_source {s : Spelling} (h : s.IsWritable) : Inline s.source ∧ Solid s.source := by
  cases h with
  | blank => exact ⟨.plain (by decide) (by decide) .nil, solid_singleton rfl⟩
  | @bare c plain =>
    have hsource : (Spelling.bare (String.singleton c)).source = [c] := by simp [Spelling.source]
    have hspecial := plain.special
    simp only [List.mem_cons, List.not_mem_nil, or_false, not_or] at hspecial
    rw [hsource]
    refine ⟨.plain (by simp [hspecial]) (Text.isLineBreak_of_isSpace_eq_false plain.space) .nil, ?_⟩
    exact solid_singleton plain.space
  | @quoted c inline =>
    have hsource : (Spelling.quoted (String.singleton c)).source = ['\'', c] ++ ['\''] := by
      simp [Spelling.source]
    rw [hsource]
    refine ⟨.quoted inline .nil, Solid.append_left (solid_singleton rfl) (by decide) _⟩

theorem inline_name {name : String} (h : IsStateName name) :
    Inline name.toList ∧ Solid name.toList := by
  obtain ⟨c, cs, rfl, hc, hcs⟩ := h
  have htail : ∀ x ∈ c :: cs, LineRule.isNameTail x = true := by
    refine List.forall_mem_cons.2 ⟨by simp [LineRule.isNameTail, hc], fun x hx => ?_⟩
    simpa [LineRule.isNameTail, or_assoc] using hcs x hx
  rw [String.toList_ofList]
  constructor
  · refine Inline.of_forall fun x hx => ⟨fun hsign => ?_, ?_⟩
    · refine Text.sign_of_isNameTail (htail x hx) ?_
      exact List.mem_append_left [':', ','] hsign
    · exact Text.isLineBreak_of_isSpace_eq_false (Text.isSpace_of_isNameTail (htail x hx))
  · exact solid_of_forall fun x hx => Text.isSpace_of_isNameTail (htail x hx)

theorem inline_move {m : String} (h : m ∈ ["R", "L", "S", "<", ">", "-"]) : Inline m.toList := by
  simp only [List.mem_cons, List.not_mem_nil, or_false] at h
  rcases h with rfl | rfl | rfl | rfl | rfl | rfl
  all_goals exact Inline.of_all rfl

theorem inline_numeral (x : Int) : Inline (numeral x) ∧ Solid (numeral x) := by
  have hdigit : ∀ c ∈ numeral x, 48 ≤ c.toNat ∧ c.toNat ≤ 57 := by
    intro c hc
    have hdigit := LineRule.isDigit_of_mem_numeral hc
    simp only [Char.isDigit, Bool.and_eq_true, decide_eq_true_eq] at hdigit
    exact hdigit
  have hspace : ∀ c ∈ numeral x, Text.isSpace c = false := by
    intro c hc
    have hrange := hdigit c hc
    simp only [Text.isSpace, Text.isWhite, Bool.or_eq_false_iff, Bool.and_eq_false_iff,
      decide_eq_false_iff_not, beq_eq_false_iff_ne]
    omega
  refine ⟨Inline.of_forall fun c hc => ⟨?_, ?_⟩, solid_of_forall hspace⟩
  · intro hsign
    have hrange := hdigit c hc
    simp only [List.mem_cons, List.not_mem_nil, or_false] at hsign
    rcases hsign with rfl | rfl <;> exact absurd hrange (by decide)
  · exact Text.isLineBreak_of_isSpace_eq_false (hspace c hc)

theorem inline_listing {xs : List (List Char)} (h : ∀ x ∈ xs, Inline x) : Inline (listing xs) := by
  cases xs with
  | nil => exact .nil
  | cons x xs =>
    rw [List.forall_mem_cons] at h
    refine h.1.append (Inline.flatMap fun y hy => ?_)
    exact .plain (by decide) (by decide) (.plain (by decide) (by decide) (h.2 y hy))

theorem solid_listing {xs : List (List Char)} (h : ∀ x ∈ xs, x ≠ [] ∧ Solid x) :
    Solid (listing xs) := by
  have htail : ∀ ys : List (List Char), (∀ y ∈ ys, y ≠ [] ∧ Solid y) →
      Solid (ys.flatMap fun y => ',' :: ' ' :: y) := by
    intro ys hys
    induction ys with
    | nil => exact solid_of_forall (by simp)
    | cons y ys ih =>
      rw [List.forall_mem_cons] at hys
      rw [List.flatMap_cons]
      exact (hys.1.2.append_left hys.1.1 [',', ' ']).append (ih hys.2)
  cases xs with
  | nil => exact solid_of_forall (by simp [listing])
  | cons x xs =>
    rw [List.forall_mem_cons] at h
    exact h.1.2.append (htail xs h.2)

theorem inline_vector {xs : List (List Char)} (h : ∀ x ∈ xs, Inline x) :
    Inline (vector xs) ∧ Solid (vector xs) := by
  constructor
  · refine .plain (by decide) (by decide) ((inline_listing h).append ?_)
    exact .plain (by decide) (by decide) .nil
  · exact Solid.append_left (solid_singleton rfl) (List.cons_ne_nil _ _) ('[' :: listing xs)

theorem inline_sources {row : List Symbol} (h : ∀ s ∈ row, s.spelling.IsWritable) :
    ∀ x ∈ sources row, Inline x ∧ x ≠ [] ∧ Solid x := by
  intro x hx
  obtain ⟨s, hs, rfl⟩ := List.mem_map.1 hx
  obtain ⟨c, cs, hsource, -⟩ := LineRule.exists_source (h s hs)
  obtain ⟨hinline, hsolid⟩ := inline_source (h s hs)
  exact ⟨hinline, by simp [hsource], hsolid⟩

theorem Transition.inline_part (multi : Bool) {xs : List (List Char)} (h : ∀ x ∈ xs, Inline x) :
    Inline (part multi xs) := by
  cases multi with
  | true => exact (inline_vector h).1
  | false => exact inline_listing h

/-- What is read comes first on a transition line, and begins without a blank. -/
theorem Transition.unblank_part (multi : Bool) {row : List Symbol} (hne : row ≠ [])
    (h : ∀ s ∈ row, s.spelling.IsWritable) :
    part multi (sources row) ≠ [] ∧ LineRule.Unblank (part multi (sources row)) := by
  cases multi with
  | true => exact ⟨List.cons_ne_nil _ _, LineRule.unblank_cons (by decide)⟩
  | false =>
    obtain ⟨s, row, rfl⟩ := List.exists_cons_of_ne_nil hne
    obtain ⟨c, cs, hsource, hblank, -⟩ := LineRule.exists_source (h s List.mem_cons_self)
    have htext : part false (sources (s :: row)) =
        c :: (cs ++ (sources row).flatMap fun y => ',' :: ' ' :: y) := by
      simp [part, sources, listing, hsource]
    rw [htext]
    exact ⟨List.cons_ne_nil _ _, LineRule.unblank_cons hblank⟩

/-! ### The lines -/

theorem isContent_directive (d : Directive) {value : List Char} (hinline : Inline value)
    (hsolid : Solid value) : IsContent (directive d value) := by
  have hword : Inline (d.text.toList ++ [':']) ∧ Solid (d.text.toList ++ [':']) := by
    refine ⟨?_, Solid.append_left (solid_singleton rfl) (by decide) _⟩
    cases d <;> exact Inline.of_all rfl
  have htext : directive d value = (d.text.toList ++ [':']) ++ value := by simp [directive]
  rw [htext]
  refine Inline.isContent (hword.1.append hinline) (by simp) ?_ (hword.2.append hsolid)
  cases d <;> simp [Directive.text, Text.isBlank]

theorem isContent_name {d : NameDecl} (h : d.IsWritable) : IsContent d.source where
  ne_nil := by simp [NameDecl.source, directive]
  start := by simp [NameDecl.source, directive, Directive.text, Text.isBlank]
  stop := by
    have hsolid : Solid d.text.toList := Text.isSpace_getLast?_of_trim h.trimmed
    exact hsolid.append_left h.ne_nil "name: ".toList
  uncommented := by
    have hfrom : stripCommentFrom true d.text.toList = d.text.toList := h.uncommented
    show stripCommentFrom true ('n' :: 'a' :: 'm' :: 'e' :: ':' :: ' ' :: d.text.toList) = _
    simp [stripCommentFrom, Text.isBlank, hfrom, NameDecl.source, directive, Directive.text]
  inline := by
    have hword : Inline "name: ".toList := Inline.of_all rfl
    have htext : d.source = "name: ".toList ++ d.text.toList := rfl
    rw [htext, List.forall_mem_append]
    exact ⟨hword.isLineBreak_eq_false, h.inline⟩

theorem isContent_row {row : List Symbol} (h : ∀ s ∈ row, s.spelling.IsWritable) :
    IsContent (vector (sources row)) := by
  obtain ⟨hinline, hsolid⟩ := inline_vector fun x hx => (inline_sources h x hx).1
  exact hinline.isContent (List.cons_ne_nil _ _) (by simp [vector, Text.isBlank]) hsolid

theorem isContent_header {name : String} (h : IsStateName name) :
    IsContent (name.toList ++ [':']) := by
  have hcolon : Inline [':'] ∧ Solid [':'] :=
    ⟨.plain (by decide) (by decide) .nil, solid_singleton rfl⟩
  refine ((inline_name h).1.append hcolon.1).isContent (by simp) ?_
    (hcolon.2.append_left (by decide) _)
  obtain ⟨c, cs, rfl, hc, -⟩ := h
  have htail : LineRule.isNameTail c = true := by simp [LineRule.isNameTail, hc]
  simpa using Text.isBlank_of_isSpace_eq_false (Text.isSpace_of_isNameTail htail)

theorem isContent_transition {t : Transition} (h : t.IsWritable) : IsContent t.source := by
  have hcomma : Inline ", ".toList := Inline.of_all rfl
  have harrow : Inline " -> ".toList := Inline.of_all rfl
  have hread := Transition.inline_part t.multi fun x hx => (inline_sources h.read x hx).1
  have hmove : Inline (Transition.part t.multi (t.moves.map String.toList)) := by
    refine Transition.inline_part t.multi fun x hx => ?_
    obtain ⟨m, hm, rfl⟩ := List.mem_map.1 hx
    exact inline_move (h.moves m hm)
  have hwrite : Inline ((t.write.map fun w =>
      " -> ".toList ++ Transition.part t.multi (sources w)).getD []) := by
    cases hw : t.write with
    | none => exact .nil
    | some w =>
      exact harrow.append
        (Transition.inline_part t.multi fun x hx => (inline_sources (h.write w hw) x hx).1)
  obtain ⟨hnext, hsolid⟩ := inline_name h.next
  have hne : t.next.toList ≠ [] := by
    obtain ⟨c, cs, hname, -⟩ := h.next
    rw [hname, String.toList_ofList]
    exact List.cons_ne_nil c cs
  obtain ⟨hfirst, hunblank⟩ := Transition.unblank_part t.multi h.read_ne h.read
  refine (hread.append (hwrite.append ((hcomma.append hmove).append (hcomma.append hnext)))).isContent
    (by simp) (hunblank.append_right hfirst _) ?_
  -- the name of the next state comes last
  refine Solid.append_left (Solid.append_left (Solid.append_left ?_ ?_ _) ?_ _) ?_ _
  · exact hsolid.append_left hne _
  all_goals simp

end Ast

end TapeLang
