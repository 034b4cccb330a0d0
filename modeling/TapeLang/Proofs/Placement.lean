import Mathlib
import TapeLang.Proofs.CommentAgreement

/-!
# Locations are faithful

The tree of a text has the places of its symbols, states and transitions. They are found again in the text:
what stands there is what the tree has.

* `Text.StandsAt`: a piece of text stands at a location;
* `standsAt_of_code`: a place in the code of a line is a place in the text;
* `Ast.RowStands`, `rowStands_of_strewn`: symbols that stand on a line from left to right;
* `locations_are_faithful`: the locations of a whole tree.
-/

namespace TapeLang

/-- The piece stands in the source text at the location. -/
def Text.StandsAt (text : List Char) (file : String) (loc : Location) (piece : List Char) : Prop :=
  ∃ (n k : Nat) (raw : List Char), loc = ⟨file, n, k + 1⟩ ∧ Text.line? text n = some raw ∧
    piece <+: raw.drop k

/-- The symbol stands at its location: its character, between quotes if it is quoted. -/
def Ast.Symbol.Stands (text : List Char) (file : String) (s : Ast.Symbol) : Prop :=
  ∃ c, s.spelling.value = String.singleton c ∧
    Text.StandsAt text file s.loc (if s.spelling.isQuoted then ['\'', c, '\''] else [c])

/-- The symbols stand on a line, from left to right. -/
structure Ast.RowStands (text : List Char) (file : String) (line : Int) (row : List Ast.Symbol) : Prop where
  stands : ∀ s ∈ row, s.Stands text file
  line : ∀ s ∈ row, s.loc.line = line
  increasing : row.Pairwise fun s s' => s.loc.column < s'.loc.column

/-! ### Places in the code of a line -/

section Places

variable {text : List Char} {file : String} {line : Line}

/-- A place in the code of a logical line is the same place of its physical line. -/
theorem standsAt_of_code (file : String) (hline : line ∈ scanLines text) {before piece after : List Char}
    (hcode : line.code = before ++ (piece ++ after)) :
    Text.StandsAt text file ⟨file, line.number, before.length + 1⟩ piece := by
  obtain ⟨raw, hraw, hofRaw⟩ := mem_scanLines.1 hline
  obtain ⟨tail, rfl⟩ := (Line.code_prefix hofRaw).2
  refine ⟨line.number, before.length, _, rfl, hraw, ?_⟩
  rw [hcode, List.append_assoc, List.drop_left, List.append_assoc]
  exact List.prefix_append piece _

/-- A symbol is spelled with one character, or with three. -/
theorem Ast.Spelling.IsSingle.exists_char {s : Ast.Spelling} (h : s.IsSingle) :
    ∃ c, s.value = String.singleton c ∧ s.source = if s.isQuoted then ['\'', c, '\''] else [c] := by
  cases s with
  | blank => exact ⟨'_', rfl, rfl⟩
  | bare value =>
    obtain ⟨c, rfl⟩ := Text.exists_singleton h
    exact ⟨c, rfl, String.toList_singleton c⟩
  | quoted value =>
    obtain ⟨c, rfl⟩ := Text.exists_singleton h
    exact ⟨c, rfl, by simp [source, isQuoted]⟩

/-- **Symbols that are derived by pieces of a line stand there.** -/
theorem rowStands_of_strewn (hline : line ∈ scanLines text) {before piece : List Char}
    {row : List Ast.Symbol} (hcode : line.code = before ++ piece)
    (h : Strewn (LineRule.symbol (line.placeAt file before.length)).Derives 0 piece row) :
    Ast.RowStands text file line.number row where
  stands s hs := by
    obtain ⟨before', piece', after, rfl, hsymbol⟩ := h.exists_piece hs
    obtain ⟨rfl, hloc, hsingle⟩ := LineRule.source_of_symbol hsymbol
    obtain ⟨c, hvalue, hsource⟩ := hsingle.exists_char
    refine ⟨c, hvalue, ?_⟩
    rw [← hsource, hloc]
    have hcode' : line.code = (before ++ before') ++ (s.spelling.source ++ after) := by
      rw [hcode, List.append_assoc]
    have hstands := standsAt_of_code file hline hcode'
    simpa [Line.placeAt] using hstands
  line s hs := by
    obtain ⟨_, _, _, -, hsymbol⟩ := h.exists_piece hs
    rw [(LineRule.source_of_symbol hsymbol).2.1]
    rfl
  increasing := by
    refine h.pairwise.imp ?_
    rintro s s' ⟨i, piece, j, piece', hs, hs', hle⟩
    obtain ⟨rfl, hloc, hsingle⟩ := LineRule.source_of_symbol hs
    obtain ⟨-, hloc', -⟩ := LineRule.source_of_symbol hs'
    obtain ⟨c, -, hsource⟩ := hsingle.exists_char
    have hpos : 0 < s.spelling.source.length := by
      rw [hsource]
      split <;> simp
    rw [hloc, hloc']
    simp only [Line.placeAt]
    omega

/-- The value of a directive is the last part of the code of its line. -/
theorem Line.Announces.exists_code {d : Directive} {offset : Nat} {rest : List Char}
    (h : line.Announces d offset rest) : ∃ before, before.length = offset ∧ line.code = before ++ rest := by
  obtain ⟨key, hcontent, -, -, rfl⟩ := h
  refine ⟨line.indent ++ key ++ [':'], by simp [Nat.add_assoc], ?_⟩
  rw [Line.code, hcontent]
  simp

/-- A state header begins with the name of the state. -/
theorem LineRule.name_prefix_of_stateHeader {n : Nat} {s : List Char} {name : String}
    (h : stateHeader.Derives n s name) : name.toList <+: s := by
  obtain ⟨s₁, s₂, -, rfl, hname, -⟩ := Pattern.derives_andSkip.1 h
  obtain ⟨⟨c, cs⟩, ⟨s₃, s₄, rfl, ⟨rfl, -⟩, rfl, -⟩, rfl⟩ := hname
  rw [String.toList_ofList]
  exact List.prefix_append _ s₂

/-- A row, wherever it is declared, stands on a line. -/
theorem rowStands_of_reads {part : Ast.TapeDecl} {s : Section} (h : s.Reads file (.tape part))
    (hlines : ∀ line ∈ s.lines, line ∈ scanLines text) :
    ∀ row ∈ part.rows, ∃ n, Ast.RowStands text file n row := by
  cases h with
  | line announces declared body =>
    cases declared with
    | @tape row value =>
      obtain ⟨before, rfl, hcode⟩ := announces.exists_code
      refine List.forall_mem_singleton.2 ⟨s.header.number, ?_⟩
      refine rowStands_of_strewn (hlines s.header List.mem_cons_self) hcode ?_
      exact LineRule.strewn_of_tapeValue (Pattern.derives_of_parse value)
  | tapes announces bare ne level reads =>
    intro row hrow
    obtain ⟨line, hline, hread⟩ := exists_of_forall₂_of_mem reads hrow
    refine ⟨line.number, rowStands_of_strewn (hlines line (List.mem_cons_of_mem _ hline)) rfl ?_⟩
    exact LineRule.strewn_of_tapeRow (Pattern.derives_of_parse hread)

/-- The name of a state stands at the place of its header. -/
theorem standsAt_of_header (hline : line ∈ scanLines text) {name : String}
    (h : LineRule.stateHeader.parse line.content = .ok name) :
    Text.StandsAt text file (line.place file) name.toList := by
  obtain ⟨after, hafter⟩ := LineRule.name_prefix_of_stateHeader (Pattern.derives_of_parse h)
  have hcode : line.code = line.indent ++ (name.toList ++ after) := by rw [hafter, Line.code]
  exact standsAt_of_code file hline hcode

/-- The transition begins behind the indentation of its line, and its symbols stand on that line. -/
structure Ast.Transition.Stands (text : List Char) (file : String) (t : Ast.Transition) : Prop where
  loc : ∃ (n : Nat) (raw : List Char), Text.line? text n = some raw ∧
    t.loc = ⟨file, n, (raw.takeWhile Text.isBlank).length + 1⟩
  read : Ast.RowStands text file t.loc.line t.read
  write : ∀ w ∈ t.write, Ast.RowStands text file t.loc.line w

theorem stands_of_readsTransition (hline : line ∈ scanLines text) {t : Ast.Transition}
    (h : ReadsTransition file line t) : t.Stands text file := by
  have hderives := Pattern.derives_of_parse h.1
  have hloc : t.loc = ⟨file, line.number, line.indent.length + 1⟩ := LineRule.loc_of_transition hderives
  have hstands : ∀ {row}, Strewn (LineRule.symbol (line.placeAt file line.indent.length)).Derives 0
      line.content row → Ast.RowStands text file line.number row := rowStands_of_strewn hline rfl
  obtain ⟨hread, hwrite⟩ := LineRule.strewn_of_transition hderives
  refine ⟨?_, ?_, ?_⟩
  · obtain ⟨raw, hraw, hofRaw⟩ := mem_scanLines.1 hline
    refine ⟨line.number, raw, hraw, ?_⟩
    rw [hloc, Line.eq_of_ofRaw? hofRaw]
    rfl
  · rw [hloc]
    exact hstands hread
  · intro w hw
    rw [hloc]
    exact hstands (hwrite w hw)

end Places

/-- A rule of the tree is read from a line of the text. -/
theorem exists_line_of_rule {text : List Char} {file : String} {tree : Ast.Program}
    (h : parse text file = .ok tree) {rule : Rule} (hrule : rule ∈ tree.states.flatMap Ast.State.rules) :
    ∃ line ∈ scanLines text, ReadsRule file line rule := by
  obtain ⟨above, below, header, body, hlines, hrules, -⟩ := exists_rules_block h
  obtain ⟨line, hline, hread⟩ := exists_of_forall₂_of_mem hrules hrule
  exact ⟨line, by simp [hlines, hline], hread⟩

/-- The tapes of the tree are read from a section of the text. -/
theorem exists_section_of_tape {text : List Char} {file : String} {tree : Ast.Program}
    (h : parse text file = .ok tree) :
    ∃ s : Section, s.Reads file (.tape tree.tape) ∧ ∀ line ∈ s.lines, line ∈ scanLines text := by
  rw [parse_eq_readLines (parse_eq_ok_iff.1 h).1] at h
  obtain ⟨sections, parts, hlines, hreads, -, hhas, -⟩ := readLines_eq_ok_iff.1 h
  obtain ⟨s, hs, hread⟩ := exists_of_forall₂_of_mem hreads ((hhas (.tape tree.tape)).1 rfl)
  exact ⟨s, hread, fun line hline => hlines ▸ List.mem_flatMap.2 ⟨s, hs, hline⟩⟩

/-- **Locations are faithful.** In the tree of a text that is accepted, every symbol of a row, of a list to
read or of a list to write stands at its location, and the columns of such a list increase. The name of a
state stands at the location of the state, and a transition begins behind the indentation of its line. -/
theorem locations_are_faithful {text : List Char} {file : String} {tree : Ast.Program}
    (h : parse text file = .ok tree) :
    (∀ row ∈ tree.tape.rows, ∃ n, Ast.RowStands text file n row) ∧
      ∀ state ∈ tree.states, Text.StandsAt text file state.loc state.name.toList ∧
        ∀ t ∈ state.transitions, t.Stands text file := by
  refine ⟨?_, fun state hstate => ⟨?_, fun t ht => ?_⟩⟩
  · obtain ⟨s, hread, hlines⟩ := exists_section_of_tape h
    exact rowStands_of_reads hread hlines
  · have hrule : .header state.name state.loc ∈ tree.states.flatMap Ast.State.rules :=
      List.mem_flatMap.2 ⟨state, hstate, List.mem_cons_self⟩
    obtain ⟨line, hline, hread⟩ := exists_line_of_rule h hrule
    generalize state.loc = loc at hread ⊢
    cases hread with
    | header value => exact standsAt_of_header hline value
  · have hrule : .transition t ∈ tree.states.flatMap Ast.State.rules :=
      List.mem_flatMap.2 ⟨state, hstate, List.mem_cons_of_mem _ (List.mem_map_of_mem ht)⟩
    obtain ⟨line, hline, hread⟩ := exists_line_of_rule h hrule
    cases hread with
    | transition value => exact stands_of_readsTransition hline value

/-- A text with quoted symbols, a tab, blanks inside of lists and number signs. -/
def unevenPlaces : List Char :=
  ("tapes:\n\t[ '#' ,a] # row\nrules:\n  go.on : # state\n     ['#', _]-> [b,  '\''], [R,L], go.on\n").toList

/-- The quotes of a symbol belong to its place, and so does nothing in front of it. -/
theorem locations_are_faithful_uneven :
    ∃ tree, parse unevenPlaces "m" = .ok tree ∧
      tree.tape.rows.map (·.map (·.loc)) = [[⟨"m", 2, 4⟩, ⟨"m", 2, 9⟩]] ∧
      (∀ row ∈ tree.tape.rows, ∃ n, Ast.RowStands unevenPlaces "m" n row) ∧
      tree.states.map (·.loc) = [⟨"m", 4, 3⟩] ∧
      ∀ state ∈ tree.states, Text.StandsAt unevenPlaces "m" state.loc state.name.toList ∧
        ∀ t ∈ state.transitions, t.Stands unevenPlaces "m" := by
  have heval : ((parse unevenPlaces "m").toOption.map fun tree =>
      (tree.tape.rows.map (·.map (·.loc)), tree.states.map (·.loc))) =
      some ([[⟨"m", 2, 4⟩, ⟨"m", 2, 9⟩]], [⟨"m", 4, 3⟩]) := by
    decide +kernel
  simp only [Option.map_eq_some_iff, toOption_eq_some_iff, Prod.mk.injEq] at heval
  obtain ⟨tree, hparse, hrows, hstates⟩ := heval
  obtain ⟨hrow, hstate⟩ := locations_are_faithful hparse
  exact ⟨tree, hparse, hrows, hrow, hstates, hstate⟩

end TapeLang
