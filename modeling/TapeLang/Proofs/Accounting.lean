import Mathlib
import TapeLang.Proofs.Recognition

/-!
# Every line has its piece of the tree

In a text that is accepted, each logical line gives exactly one piece of the tree, and the pieces stand in
the order of their lines.

* `Rule`, `Ast.State.rules`: the headers and the transitions of the states, one after the other;
* `ReadsOn.forall₂_rules`: each line below `rules:` gives one of them;
* `Section.AccountsFor`: what the lines of a section give;
* `every_line_has_its_piece`: all lines of a text.
-/

namespace TapeLang

/-! ### Headers and transitions -/

/-- What a line below `rules:` gives. -/
inductive Rule where
  | header (name : String) (loc : Location)
  | transition (t : Ast.Transition)

/-- The number of the line that gives the rule. -/
def Rule.line : Rule → Int
  | .header _ loc => loc.line
  | .transition t => t.loc.line

/-- The header of a state and its transitions, in source order. -/
def Ast.State.rules (s : Ast.State) : List Rule :=
  .header s.name s.loc :: s.transitions.map .transition

/-- The line gives the rule. -/
inductive ReadsRule (file : String) (line : Line) : Rule → Prop
  | header {name : String} (value : LineRule.stateHeader.parse line.content = .ok name) :
      ReadsRule file line (.header name (line.place file))
  | transition {t : Ast.Transition} (value : ReadsTransition file line t) :
      ReadsRule file line (.transition t)

theorem LineRule.loc_of_transition {here : Nat → Location} {n : Nat} {s : List Char}
    {t : Ast.Transition} (h : (transition here).Derives n s t) : t.loc = here n := by
  rcases h with ⟨x, -, rfl⟩ | ⟨x, -, rfl⟩
  · rfl
  · rfl

/-- A rule is located on its line. -/
theorem ReadsRule.line_eq {file : String} {line : Line} {rule : Rule} (h : ReadsRule file line rule) :
    rule.line = line.number := by
  cases h with
  | header value => rfl
  | transition value =>
    exact congrArg Location.line (LineRule.loc_of_transition (Pattern.derives_of_parse value.1))

/-- The lines behind the header of a state give its other transitions and the states after it. -/
theorem ReadsOn.forall₂_rules {file : String} {unit : Indent} {inner : Option Indent}
    {known : List String} {s : Ast.State} {lines : List Line} {states : List Ast.State}
    (h : ReadsOn file unit inner known s lines states) :
    ∃ more, states.flatMap Ast.State.rules = s.rules ++ more ∧
      List.Forall₂ (ReadsRule file) lines more := by
  induction h with
  | stop => exact ⟨[], by simp, .nil⟩
  | @transition _ _ s _ _ t _ _ value _ ih =>
    obtain ⟨more, heq, hmore⟩ := ih
    refine ⟨.transition t :: more, ?_, .cons (.transition value) hmore⟩
    rw [heq]
    simp [Ast.State.rules]
  | header _ value _ _ ih =>
    obtain ⟨more, heq, hmore⟩ := ih
    refine ⟨_ :: more, ?_, .cons (.header value) hmore⟩
    rw [List.flatMap_cons, heq]
    rfl

/-- **Each line below `rules:` gives one rule.** -/
theorem ReadsOn.forall₂_rules_cons {file : String} {unit : Indent} {known : List String}
    {first : Line} {lines : List Line} {name : String} {states : List Ast.State}
    (hname : LineRule.stateHeader.parse first.content = .ok name)
    (h : ReadsOn file unit none known ⟨name, [], first.place file⟩ lines states) :
    List.Forall₂ (ReadsRule file) (first :: lines) (states.flatMap Ast.State.rules) := by
  obtain ⟨more, heq, hmore⟩ := h.forall₂_rules
  rw [heq]
  exact .cons (.header hname) hmore

theorem map_number_of_rules {file : String} {lines : List Line} {states : List Ast.State}
    (h : List.Forall₂ (ReadsRule file) lines (states.flatMap Ast.State.rules)) :
    lines.map (fun line => (line.number : Int)) =
      states.flatMap fun s => s.loc.line :: s.transitions.map (·.loc.line) := by
  have hlines : (states.flatMap Ast.State.rules).map Rule.line =
      lines.map fun line => (line.number : Int) := by
    rw [← List.forall₂_eq_eq_eq, List.forall₂_map_left_iff, List.forall₂_map_right_iff]
    exact h.flip.imp fun _ _ hrule => hrule.line_eq
  rw [← hlines, List.map_flatMap]
  simp [Ast.State.rules, Rule.line, Function.comp_def]

/-! ### Directives -/

/-- The directive of a line outside every block. -/
def Line.directive? (line : Line) : Option Directive :=
  if ':' ∈ line.content then
    Directive.ofText? (String.ofList (Text.trim (line.content.takeWhile (· != ':'))))
  else none

theorem Line.Announces.directive?_eq {line : Line} {d : Directive} {offset : Nat} {rest : List Char}
    (h : line.Announces d offset rest) : line.directive? = some d := by
  obtain ⟨key, hcontent, hcolon, hword, -⟩ := h
  rw [directive?, if_pos (by simp [hcontent]), (Reader.content_split hcontent hcolon).1, hword]

/-- What the lines of a section with the directive give: the lines below `tapes:` are the rows, those below
`rules:` the headers of the states and their transitions, and every other directive has its value on its
own line and no line below it. -/
def Section.AccountsFor (s : Section) (file : String) (tree : Ast.Program) : Directive → Prop
  | .tapes => tree.tape.multi = true ∧ tree.tape.loc = s.header.place file ∧
      List.Forall₂ (ReadsRow file) s.body tree.tape.rows
  | .rules => List.Forall₂ (ReadsRule file) s.body (tree.states.flatMap Ast.State.rules) ∧
      s.body.map (fun line => (line.number : Int)) =
        tree.states.flatMap fun state => state.loc.line :: state.transitions.map (·.loc.line)
  | d => s.body = [] ∧ ∃ part offset rest, part.directive = d ∧ tree.Has part ∧
      s.header.Announces d offset rest ∧ Declared file s.header offset rest part

/-- A section accounts for the part that it gives. -/
theorem Section.Reads.accountsFor {s : Section} {file : String} {tree : Ast.Program} {part : Part}
    (h : s.Reads file part) (hhas : tree.Has part) :
    s.header.directive? = some part.directive ∧ s.AccountsFor file tree part.directive := by
  cases h with
  | line announces declared body =>
    refine ⟨announces.directive?_eq, ?_⟩
    cases declared with
    | name ne => exact ⟨body, _, _, _, rfl, hhas, announces, .name ne⟩
    | tape value => exact ⟨body, _, _, _, rfl, hhas, announces, .tape value⟩
    | head value number => exact ⟨body, _, _, _, rfl, hhas, announces, .head value number⟩
    | heads value numbers => exact ⟨body, _, _, _, rfl, hhas, announces, .heads value numbers⟩
    | blank value => exact ⟨body, _, _, _, rfl, hhas, announces, .blank value⟩
  | @tapes offset rest unit rows announces bare ne level reads =>
    have htape : tree.tape = ⟨rows, true, s.header.place file⟩ := hhas
    refine ⟨announces.directive?_eq, ?_⟩
    show tree.tape.multi = true ∧ tree.tape.loc = s.header.place file ∧
      List.Forall₂ (ReadsRow file) s.body tree.tape.rows
    rw [htape]
    exact ⟨rfl, rfl, reads⟩
  | rules announces bare body value reads =>
    have hrules := reads.forall₂_rules_cons value
    rw [← body, ← (hhas : tree.states = _)] at hrules
    exact ⟨announces.directive?_eq, hrules, map_number_of_rules hrules⟩

/-- **No line is lost, repeated or attached to the wrong owner.** The logical lines of a text that is
accepted are divided into sections, each of an unindented line and the indented lines below it. The first
lines have different directives, each section accounts for what the tree has under its directive, and the
tree has nothing without a section. -/
theorem every_line_has_its_piece {text : List Char} {file : String} {tree : Ast.Program}
    (h : parse text file = .ok tree) :
    ∃ (sections : List Section) (directives : List Directive),
      scanLines text = sections.flatMap Section.lines ∧
      List.Forall₂ (fun s d => s.header.directive? = some d ∧ s.AccountsFor file tree d)
        sections directives ∧
      directives.Nodup ∧ ∀ part, tree.Has part → part.directive ∈ directives := by
  have hsize := (parse_eq_ok_iff.1 h).1
  rw [parse_eq_readLines hsize] at h
  obtain ⟨sections, parts, hlines, hreads, hnodup, hhas, -⟩ := readLines_eq_ok_iff.1 h
  refine ⟨sections, parts.map Part.directive, hlines, ?_, ?_, fun part hpart => ?_⟩
  · rw [List.forall₂_map_right_iff]
    have hboth := (List.forall₂_and_left parts sections).2
      ⟨fun part hpart => (hhas part).2 hpart, hreads.flip⟩
    exact hboth.flip.imp fun s part hs => hs.2.accountsFor hs.1
  · refine List.Nodup.of_map Directive.topic ?_
    rwa [List.map_map, List.map_congr_left fun part _ => part.topic_directive]
  · exact List.mem_map_of_mem ((hhas part).1 hpart)

/-- Two states with transitions, of which the second is the last thing that is read before another
directive. -/
theorem every_line_has_its_piece_two_states :
    let text := ("tapes:\n  [a]\n  [b, _]\nrules:\n  s:\n    [a, b], [R, S], t\n\n  t: # halts\n" ++
      "heads: [0, 1]\n").toList
    ∃ tree, parse text "m" = .ok tree ∧ ∃ (sections : List Section) (directives : List Directive),
      scanLines text = sections.flatMap Section.lines ∧
      List.Forall₂ (fun s d => s.header.directive? = some d ∧ s.AccountsFor "m" tree d)
        sections directives ∧
      directives.Nodup ∧ ∀ part, tree.Has part → part.directive ∈ directives := by
  intro text
  have hok : (parse text "m").isOk = true := by rfl
  cases h : parse text "m" with
  | error e => rw [h] at hok; cases hok
  | ok tree => exact ⟨tree, rfl, every_line_has_its_piece h⟩

end TapeLang
