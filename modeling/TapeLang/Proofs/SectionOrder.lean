import Mathlib
import TapeLang.Proofs.Comments
import TapeLang.Proofs.Recognition

/-!
# The order of the sections

The sections of a text may stand in any order: whether it is accepted does not depend on it, and neither
does the tree, up to the places.

* `Section.flatMap_lines_injective`: a text is divided into sections in one way only;
* `readLines_perm`: logical lines, without their places, in another order of the sections;
* `RawSection`: the physical lines of a section;
* `sections_commute`: texts with their sections in another order.
-/

namespace TapeLang

/-! ### Logical lines -/

namespace Section

/-- The indented lines at the beginning of what follows a header are the body. -/
theorem body_append (s : Section) (sections : List Section) :
    (s.body ++ sections.flatMap lines).takeWhile (fun line => line.indent != []) = s.body ∧
      (s.body ++ sections.flatMap lines).dropWhile (fun line => line.indent != []) =
        sections.flatMap lines := by
  have hbody : ∀ line ∈ s.body, (line.indent != []) = true := fun line hline => by
    simpa using s.body_indent line hline
  rw [List.takeWhile_append_of_pos hbody, List.dropWhile_append_of_pos hbody]
  cases sections with
  | nil => simp
  | cons t sections => simp [lines, t.header_indent]

/-- A text is divided into sections in one way only. -/
theorem flatMap_lines_injective : Function.Injective (List.flatMap lines) := by
  intro sections sections' h
  induction sections generalizing sections' with
  | nil =>
    cases sections' with
    | nil => rfl
    | cons t sections' => simp [lines] at h
  | cons s sections ih =>
    cases sections' with
    | nil => simp [lines] at h
    | cons t sections' =>
      simp only [List.flatMap_cons, lines, List.cons_append, List.cons.injEq] at h
      obtain ⟨hheader, hrest⟩ := h
      obtain ⟨hbody, hnext⟩ := s.body_append sections
      obtain ⟨hbody', hnext'⟩ := t.body_append sections'
      rw [hrest] at hbody hnext
      have hst : s = t := by
        cases s
        cases t
        cases hheader
        cases hbody.symm.trans hbody'
        rfl
      rw [hst, ih (hnext.symm.trans hnext')]

end Section

/-- **Sections may be read in any order.** -/
theorem readLines_perm {file : String} {sections sections' : List Section}
    (hperm : sections.Perm sections') {tree : Ast.Program}
    (h : readLines file (sections.flatMap Section.lines) = .ok tree) :
    readLines file (sections'.flatMap Section.lines) = .ok tree := by
  obtain ⟨found, parts, hlines, hreads, hnodup, hhas, hcount, hpath⟩ := readLines_eq_ok_iff.1 h
  cases Section.flatMap_lines_injective hlines
  obtain ⟨parts', hreads', hparts⟩ := List.perm_comp_forall₂ hperm.symm hreads
  refine readLines_eq_ok_iff.2 ⟨sections', parts', rfl, hreads', ?_, fun part => ?_, hcount, hpath⟩
  · exact (hparts.map Part.topic).nodup_iff.2 hnodup
  · rw [hhas part, hparts.mem_iff]

/-! ### Physical lines -/

/-- Whether a physical line holds an unindented logical line. -/
def opensSection (raw : List Char) : Bool :=
  (Line.ofRaw? 1 raw).any fun line => line.indent.isEmpty

theorem opensSection_eq (raw : List Char) :
    opensSection raw = (Line.bare? raw).any fun line => line.indent.isEmpty := by
  unfold opensSection Line.bare?
  cases Line.ofRaw? 1 raw <;> rfl

/-- The physical lines of a section: an unindented line, and lines that are indented, blank or only a
comment. -/
structure RawSection where
  header : List Char
  rest : List (List Char)
  opens : opensSection header = true
  continues : (rest.all fun raw => !opensSection raw) = true
  inline : ((header :: rest).all fun raw => raw.all fun c => !Text.isLineBreak c) = true

namespace RawSection

/-- The physical lines of a section. -/
def raws (s : RawSection) : List (List Char) := s.header :: s.rest

/-- The text of a section: each of its lines is followed by a line feed. -/
def text (s : RawSection) : List Char := s.raws.flatMap (· ++ ['\n'])

theorem exists_header (s : RawSection) :
    ∃ line, Line.bare? s.header = some line ∧ line.indent = [] := by
  simpa [opensSection_eq, Option.any_eq_true] using s.opens

theorem isSome_header (s : RawSection) : (Line.bare? s.header).isSome = true := by
  obtain ⟨line, hline, -⟩ := s.exists_header
  rw [hline]
  rfl

/-- The logical lines of a section, without their places. -/
def bare (s : RawSection) : Section where
  header := (Line.bare? s.header).get s.isSome_header
  body := s.rest.filterMap Line.bare?
  header_indent := by
    obtain ⟨line, hline, hindent⟩ := s.exists_header
    simpa only [hline, Option.get_some] using hindent
  body_indent := by
    intro line hline hindent
    obtain ⟨raw, hraw, hbare⟩ := List.mem_filterMap.1 hline
    have hnot := List.all_eq_true.1 s.continues raw hraw
    simp [opensSection_eq, hbare, hindent] at hnot

theorem filterMap_bare? (s : RawSection) : s.raws.filterMap Line.bare? = s.bare.lines := by
  have hheader : Line.bare? s.header = some s.bare.header := by simp [bare]
  rw [raws, List.filterMap_cons, hheader]
  rfl

/-- The logical lines of a text, without their places, are those of its sections. -/
theorem map_renumber_scanLines (sections : List RawSection) :
    (scanLines (sections.flatMap text)).map (Line.renumber fun _ => 1) =
      (sections.map bare).flatMap Section.lines := by
  have hinline : ∀ raw ∈ sections.flatMap raws, ∀ c ∈ raw, Text.isLineBreak c = false := by
    intro raw hraw
    obtain ⟨s, -, hs⟩ := List.mem_flatMap.1 hraw
    exact isLineBreak_eq_false_of_all s.inline raw hs
  have htext : sections.flatMap text = (sections.flatMap raws).flatMap (· ++ ['\n']) := by
    rw [List.flatMap_assoc]
    rfl
  rw [scanLines, htext, Text.splitLines_flatMap hinline, map_renumber_scanFrom, List.filterMap_flatMap,
    List.flatMap_map]
  simp only [filterMap_bare?]

end RawSection

/-- A text is accepted with its sections in another order, and its tree differs in the numbers of the
lines only. -/
theorem exists_parse_of_perm {sections sections' : List RawSection} (hperm : sections.Perm sections')
    {file : String} {tree : Ast.Program}
    (h : parse (sections.flatMap RawSection.text) file = .ok tree) :
    ∃ tree', parse (sections'.flatMap RawSection.text) file = .ok tree' ∧
      tree'.relocate (Location.renumber fun _ => 1) = tree.relocate (Location.renumber fun _ => 1) := by
  have hsize := (parse_eq_ok_iff.1 h).1
  have hsize' : (sections'.flatMap RawSection.text).length ≤ maxProgramSize := by
    rwa [← (hperm.flatMap_right RawSection.text).length_eq]
  rw [parse_eq_readLines hsize] at h
  rw [parse_eq_readLines hsize']
  -- without its places each section is read as before
  have hbare : readLines file ((sections.map RawSection.bare).flatMap Section.lines) =
      .ok (tree.relocate (Location.renumber fun _ => 1)) := by
    rw [← RawSection.map_renumber_scanLines, readLines_renumber rfl, h]
    rfl
  have hbare' := readLines_perm (hperm.map RawSection.bare) hbare
  rw [← RawSection.map_renumber_scanLines, readLines_renumber rfl] at hbare'
  cases hread : readLines file (scanLines (sections'.flatMap RawSection.text)) with
  | error e =>
    rw [hread] at hbare'
    cases hbare'
  | ok tree' =>
    rw [hread] at hbare'
    exact ⟨tree', rfl, Except.ok.inj hbare'⟩

/-- **The sections of a text commute.** If they are put in another order, the text is accepted exactly if
it was before, with the same tree up to the places. -/
theorem sections_commute {sections sections' : List RawSection} (hperm : sections.Perm sections')
    (file : String) :
    ((∃ tree, parse (sections.flatMap RawSection.text) file = .ok tree) ↔
      ∃ tree', parse (sections'.flatMap RawSection.text) file = .ok tree') ∧
    ∀ tree tree', parse (sections.flatMap RawSection.text) file = .ok tree →
      parse (sections'.flatMap RawSection.text) file = .ok tree' →
      tree'.unlocated = tree.unlocated ∧ tree'.sourcePath = tree.sourcePath := by
  refine ⟨⟨?_, ?_⟩, ?_⟩
  · rintro ⟨tree, h⟩
    obtain ⟨tree', h', -⟩ := exists_parse_of_perm hperm h
    exact ⟨tree', h'⟩
  · rintro ⟨tree', h'⟩
    obtain ⟨tree, h, -⟩ := exists_parse_of_perm hperm.symm h'
    exact ⟨tree, h⟩
  · intro tree tree' h h'
    obtain ⟨found, hfound, heq⟩ := exists_parse_of_perm hperm h
    cases h'.symm.trans hfound
    have hunlocated := congrArg Ast.Program.unlocated heq
    rw [Ast.Program.unlocated_relocate, Ast.Program.unlocated_relocate] at hunlocated
    exact ⟨hunlocated, (congrArg Ast.Program.sourcePath heq :)⟩

/-- The rules come first or last, and the heads before or after the tapes, with a comment and a blank line
inside the sections. -/
theorem sections_commute_rules_first :
    let heads : RawSection := ⟨"heads: [0, 1]".toList, ["# where".toList], rfl, rfl, rfl⟩
    let tapes : RawSection := ⟨"tapes:".toList, ["  [a]".toList, "  [b, _]".toList], rfl, rfl, rfl⟩
    let rules : RawSection :=
      ⟨"rules:".toList, ["  s:".toList, [], "    [a, b], [R, S], s".toList], rfl, rfl, rfl⟩
    (∃ tree tree', parse ([heads, tapes, rules].flatMap RawSection.text) "m" = .ok tree ∧
      parse ([rules, heads, tapes].flatMap RawSection.text) "m" = .ok tree' ∧
      tree'.unlocated = tree.unlocated ∧ tree'.sourcePath = tree.sourcePath) := by
  intro heads tapes rules
  have hperm : List.Perm [heads, tapes, rules] [rules, heads, tapes] :=
    (List.perm_append_comm : ([heads, tapes] ++ [rules]).Perm ([rules] ++ [heads, tapes]))
  have hok : (parse ([heads, tapes, rules].flatMap RawSection.text) "m").isOk = true := by rfl
  obtain ⟨hiff, hsame⟩ := sections_commute hperm "m"
  cases h : parse ([heads, tapes, rules].flatMap RawSection.text) "m" with
  | error e => rw [h] at hok; cases hok
  | ok tree =>
    obtain ⟨tree', h'⟩ := hiff.1 ⟨tree, h⟩
    exact ⟨tree, tree', rfl, h', hsame tree tree' h h'⟩

end TapeLang
