import Mathlib
import TapeLang.Proofs.Blocks
import TapeLang.Proofs.Outline

/-!
# Reading the lines of a block

The reader goes through the lines with a stack of open blocks. Here each line is read on the few stacks
that occur, and the lines of a block are put together by induction.

* `Reader.enters_unindented_iff`, `Reader.enters_indented_iff`: the first lines of sections and blocks;
* `Reader.feedAll_rows_iff`: the rows of the tapes;
* `Reader.InRules`, `Reader.InRules.feed_iff`: a line among the states and their transitions;
* `Reader.InRules.exists_feedAll`, `Reader.InRules.exists_readsOn`: all lines of the states.
-/

namespace TapeLang

namespace IndentStack

variable {s : IndentStack}

/-- The level of an open block is not the one outside. -/
theorem IsChained.ne_base (h : s.IsChained) : ∀ level ∈ s.inner, level ≠ s.base := by
  intro level hlevel hbase
  have hproper := (List.pairwise_cons.1 h.pairwise).1 level (List.mem_reverse.2 hlevel)
  exact hproper.2 hbase.symm

/-- A line outside every block closes all of them. -/
theorem closeTo_base {base : Indent} {inner : List Indent} (h : ∀ level ∈ inner, level ≠ base) :
    closeTo base base inner = some (inner.length, []) := by
  have hclose : closeTo base base (inner ++ []) = some (inner.length, []) := closeTo_append h rfl
  rwa [List.append_nil] at hclose

/-- The lines in one block that are not outside it have its level. -/
theorem closeTo_singleton_iff {unit indent : Indent} (hindent : indent ≠ []) {closed : Nat}
    {inner : List Indent} :
    closeTo [] indent [unit] = some (closed, inner) ↔
      indent = unit ∧ closed = 0 ∧ inner = [unit] := by
  by_cases hunit : unit = indent
  · simp [closeTo, hunit, eq_comm]
  · simp [closeTo, hunit, hindent.symm, Ne.symm hunit]

/-- The lines in two blocks have the level of one of them. -/
theorem closeTo_pair_iff {unit level indent : Indent} (hindent : indent ≠ []) (hne : unit ≠ level)
    {closed : Nat} {inner : List Indent} :
    closeTo [] indent [level, unit] = some (closed, inner) ↔
      (indent = level ∧ closed = 0 ∧ inner = [level, unit]) ∨
        (indent = unit ∧ closed = 1 ∧ inner = [unit]) := by
  by_cases hlevel : level = indent
  · subst hlevel
    simp [closeTo, hne.symm, eq_comm]
  · by_cases hunit : unit = indent
    · simp [closeTo, hunit, hlevel, Ne.symm hlevel, eq_comm]
    · simp [closeTo, hunit, hlevel, hindent.symm, Ne.symm hlevel, Ne.symm hunit]

end IndentStack

namespace Reader

variable {r r' r₁ : Reader} {line : Line} {lines : List Line}

/-! ### Entering a section and its block -/

/-- No block is pending that has to have a line. -/
def Settled (r : Reader) : Prop :=
  (∀ header, r.pending ≠ some (.tapes, header)) ∧ ∀ header, r.pending ≠ some (.rules, header)

theorem settled_of_pending (h : r.pending = none) : r.Settled := by
  simp [Settled, h]

/-- The reader outside every block. -/
def outside (r : Reader) : Reader :=
  { r with indents := ⟨[], []⟩, contexts := [.top], pending := none }

/-- The reader in a block outside which there is no other. -/
def inside (r : Reader) (block : Block) (unit : Indent) : Reader :=
  { r with indents := ⟨[], [unit]⟩, contexts := [block, .top], pending := none }

/-- The blocks that a line opens or closes, on given stacks. -/
theorem enters_iff {levels : List Indent} {blocks : List Block} (hindents : r.indents = ⟨[], levels⟩)
    (hcontexts : r.contexts = blocks) :
    Enters r line r₁ ↔
      (∃ block header, r.pending = some (block, header) ∧
        (levels.headD [] <+: line.indent ∧ levels.headD [] ≠ line.indent) ∧
        r₁ = { r with
          indents := ⟨[], line.indent :: levels⟩, contexts := block :: blocks, pending := none }) ∨
      (r.Settled ∧ ¬(levels.headD [] <+: line.indent ∧ levels.headD [] ≠ line.indent) ∧
        ∃ closed inner, IndentStack.closeTo [] line.indent levels = some (closed, inner) ∧
          r₁ = { r with
            indents := ⟨[], inner⟩, contexts := blocks.drop closed, pending := none }) := by
  have htop : r.indents.top = levels.headD [] := by rw [hindents]; rfl
  have hbase : r.indents.base = [] := by rw [hindents]
  have hinner : r.indents.inner = levels := by rw [hindents]
  rw [← htop, ← IndentStack.isDeeper_iff, Bool.not_eq_true, ← hbase, ← hinner, ← hcontexts]
  constructor
  · intro h
    cases h with
    | opens pending deeper => exact .inl ⟨_, _, pending, deeper, rfl⟩
    | closes tapes rules deeper close => exact .inr ⟨⟨tapes, rules⟩, deeper, _, _, close, rfl⟩
  · rintro (⟨block, header, hpending, hdeeper, rfl⟩ | ⟨hsettled, hdeeper, closed, inner, hclose, rfl⟩)
    · exact .opens hpending hdeeper
    · exact .closes hsettled.1 hsettled.2 hdeeper hclose

/-- An unindented line closes all blocks. -/
theorem enters_unindented_iff (hr : r.Nested) (hline : line.indent = []) :
    Enters r line r₁ ↔ r.Settled ∧ r₁ = r.outside := by
  have hindents : r.indents = ⟨[], r.indents.inner⟩ := by rw [← hr.base]
  have hclose : IndentStack.closeTo [] [] r.indents.inner = some (r.indents.inner.length, []) := by
    have hne := hr.chained.ne_base
    rw [hr.base] at hne
    exact IndentStack.closeTo_base hne
  have hcontexts : r.contexts.drop r.indents.inner.length = [.top] := by
    have hdepth := hr.depth
    unfold IndentStack.depth at hdepth
    rcases hr.contexts with hc | hc | hc | hc <;> rw [hc] at hdepth ⊢ <;>
      simp only [List.length_cons, List.length_nil, Nat.add_right_cancel_iff] at hdepth <;>
      rw [← hdepth] <;> rfl
  rw [enters_iff hindents rfl, hline, List.prefix_nil, hclose]
  constructor
  · rintro (⟨_, _, _, ⟨hnil, hne⟩, _⟩ | ⟨hsettled, -, closed, inner, heq, rfl⟩)
    · exact absurd hnil hne
    · cases heq
      exact ⟨hsettled, by rw [hcontexts]; rfl⟩
  · rintro ⟨hsettled, rfl⟩
    refine .inr ⟨hsettled, fun h => h.2 h.1, _, _, rfl, ?_⟩
    rw [hcontexts]
    rfl

/-- Outside every block an indented line is the first of the pending block. -/
theorem enters_indented_iff (hindents : r.indents = ⟨[], []⟩) (hcontexts : r.contexts = [.top])
    (hline : line.indent ≠ []) :
    Enters r line r₁ ↔
      ∃ block header, r.pending = some (block, header) ∧ r₁ = r.inside block line.indent := by
  have hdeeper : [] <+: line.indent ∧ [] ≠ line.indent := ⟨List.nil_prefix, hline.symm⟩
  rw [enters_iff hindents hcontexts]
  constructor
  · rintro (⟨block, header, hpending, -, rfl⟩ | ⟨-, hnot, -⟩)
    · exact ⟨block, header, hpending, rfl⟩
    · exact absurd hdeeper hnot
  · rintro ⟨block, header, hpending, rfl⟩
    exact .inl ⟨block, header, hpending, hdeeper, rfl⟩

/-- The reader below the header of a block. -/
def below (r : Reader) (block : Block) (header : Line) : Reader :=
  { r.outside with pending := some (block, header) }

theorem enters_below_iff {block : Block} {header : Line} (hline : line.indent ≠ []) :
    Enters (r.below block header) line r₁ ↔ r₁ = r.inside block line.indent := by
  rw [enters_indented_iff rfl rfl hline]
  constructor
  · rintro ⟨_, _, heq, rfl⟩
    cases heq
    rfl
  · rintro rfl
    exact ⟨block, header, rfl, rfl⟩

/-- No indented line stands below a directive with its value. -/
theorem feed_outside_ne_ok (hline : line.indent ≠ []) : r.outside.feed line ≠ .ok r' := by
  rw [ne_eq, feed_eq_ok_iff]
  rintro ⟨r₁, henters, -⟩
  obtain ⟨_, _, hpending, -⟩ := (enters_indented_iff rfl rfl hline).1 henters
  cases hpending

/-! ### The rows of the tapes -/

/-- An indented line in a block of rows has its indentation. -/
theorem enters_inside_tapes_iff {unit : Indent} (hline : line.indent ≠ []) :
    Enters (r.inside .tapes unit) line r₁ ↔ line.indent = unit ∧ r₁ = r.inside .tapes unit := by
  rw [enters_iff rfl rfl]
  constructor
  · rintro (⟨_, _, hpending, _⟩ | ⟨-, -, closed, inner, hclose, rfl⟩)
    · cases hpending
    · obtain ⟨hunit, rfl, rfl⟩ := (IndentStack.closeTo_singleton_iff hline).1 hclose
      exact ⟨hunit, rfl⟩
  · rintro ⟨hunit, rfl⟩
    refine .inr ⟨settled_of_pending rfl, fun h => h.2 hunit.symm, 0, [unit], ?_, rfl⟩
    exact (IndentStack.closeTo_singleton_iff hline).2 ⟨hunit, rfl, rfl⟩

theorem handles_row_iff (hcontext : r.contexts.head? = some .tapes) :
    Handles r line r' ↔ ∃ row, ReadsRow r.file line row ∧ r' = { r with rows := row :: r.rows } := by
  constructor
  · intro h
    cases h with
    | row _ value => exact ⟨_, value, rfl⟩
    | directive context | header context | transition context =>
      rw [hcontext] at context
      cases context
  · rintro ⟨row, hrow, rfl⟩
    exact .row hcontext hrow

theorem feed_row_iff {unit : Indent} (hline : line.indent ≠ []) :
    (r.inside .tapes unit).feed line = .ok r' ↔
      line.indent = unit ∧
        ∃ row, ReadsRow r.file line row ∧ r' = { r with rows := row :: r.rows }.inside .tapes unit := by
  rw [feed_eq_ok_iff]
  constructor
  · rintro ⟨r₁, henters, hhandles⟩
    obtain ⟨hunit, rfl⟩ := (enters_inside_tapes_iff hline).1 henters
    exact ⟨hunit, (handles_row_iff rfl).1 hhandles⟩
  · rintro ⟨hunit, h⟩
    exact ⟨_, (enters_inside_tapes_iff hline).2 ⟨hunit, rfl⟩, (handles_row_iff rfl).2 h⟩

/-- **The indented lines below the first row are the other rows.** -/
theorem feedAll_rows_iff {unit : Indent} (hlines : ∀ line ∈ lines, line.indent ≠ []) :
    (r.inside .tapes unit).feedAll lines = .ok r' ↔
      (∀ line ∈ lines, line.indent = unit) ∧
        ∃ rows, List.Forall₂ (ReadsRow r.file) lines rows ∧
          r' = { r with rows := rows.reverse ++ r.rows }.inside .tapes unit := by
  induction lines generalizing r with
  | nil => simp [feedAll, eq_comm]
  | cons line lines ih =>
    rw [List.forall_mem_cons] at hlines
    rw [feedAll_cons_eq_ok_iff, List.forall_mem_cons]
    constructor
    · rintro ⟨r₁, h₁, h⟩
      obtain ⟨hunit, row, hrow, rfl⟩ := (feed_row_iff hlines.1).1 h₁
      obtain ⟨hunits, rows, hrows, rfl⟩ := (ih hlines.2).1 h
      exact ⟨⟨hunit, hunits⟩, row :: rows, .cons hrow hrows, by simp⟩
    · rintro ⟨⟨hunit, hunits⟩, rows, hrows, rfl⟩
      cases hrows with
      | @cons _ row _ rows hrow hrows =>
        refine ⟨_, (feed_row_iff hlines.1).2 ⟨hunit, row, hrow, rfl⟩, ?_⟩
        exact (ih hlines.2).2 ⟨hunits, rows, hrows, by simp⟩

theorem feed_first_row_iff {header : Line} (hline : line.indent ≠ []) :
    (r.below .tapes header).feed line = .ok r' ↔
      ∃ row, ReadsRow r.file line row ∧
        r' = { r with rows := row :: r.rows }.inside .tapes line.indent := by
  rw [feed_eq_ok_iff]
  constructor
  · rintro ⟨r₁, henters, hhandles⟩
    obtain rfl := (enters_below_iff hline).1 henters
    exact (handles_row_iff rfl).1 hhandles
  · intro h
    exact ⟨_, (enters_below_iff hline).2 rfl, (handles_row_iff rfl).2 h⟩

/-- **The indented lines below the header of the tapes are the rows.** -/
theorem feedAll_tapes_iff {header : Line} (hne : lines ≠ [])
    (hlines : ∀ line ∈ lines, line.indent ≠ []) :
    (r.below .tapes header).feedAll lines = .ok r' ↔
      ∃ unit rows, (∀ line ∈ lines, line.indent = unit) ∧
        List.Forall₂ (ReadsRow r.file) lines rows ∧
        r' = { r with rows := rows.reverse ++ r.rows }.inside .tapes unit := by
  cases lines with
  | nil => exact absurd rfl hne
  | cons line lines =>
    rw [List.forall_mem_cons] at hlines
    rw [feedAll_cons_eq_ok_iff]
    constructor
    · rintro ⟨r₁, h₁, h⟩
      obtain ⟨row, hrow, rfl⟩ := (feed_first_row_iff hlines.1).1 h₁
      obtain ⟨hunits, rows, hrows, rfl⟩ := (feedAll_rows_iff hlines.2).1 h
      exact ⟨line.indent, row :: rows, List.forall_mem_cons.2 ⟨rfl, hunits⟩, .cons hrow hrows, by simp⟩
    · rintro ⟨unit, rows, hunits, hrows, rfl⟩
      obtain ⟨rfl, hunits⟩ := List.forall_mem_cons.1 hunits
      cases hrows with
      | @cons _ row _ rows hrow hrows =>
        refine ⟨_, (feed_first_row_iff hlines.1).2 ⟨row, hrow, rfl⟩, ?_⟩
        exact (feedAll_rows_iff hlines.2).2 ⟨hunits, rows, hrows, by simp⟩

/-! ### The states and their transitions -/

/-- The reader is in the block of the states, which are indented by `unit`. The current state is `s`, and
its transitions are indented by `inner`. -/
structure InRules (r : Reader) (unit : Indent) (inner : Option Indent) (s : Ast.State) : Prop where
  unit_ne : unit ≠ []
  current : r.current = some { s with transitions := s.transitions.reverse }
  blocks : match inner with
    | none => r.contexts = [.rules, .top] ∧ r.indents = ⟨[], [unit]⟩ ∧
        ∃ header, r.pending = some (.state, header)
    | some level => (unit <+: level ∧ unit ≠ level) ∧ r.contexts = [.state, .rules, .top] ∧
        r.indents = ⟨[], [level, unit]⟩ ∧ r.pending = none

/-- The reader in the block of a state. -/
def inState (r : Reader) (unit level : Indent) : Reader :=
  { r with indents := ⟨[], [level, unit]⟩, contexts := [.state, .rules, .top], pending := none }

theorem InRules.settled {unit : Indent} {inner : Option Indent} {s : Ast.State}
    (hr : r.InRules unit inner s) : r.Settled := by
  have hblocks := hr.blocks
  cases inner with
  | none =>
    obtain ⟨-, -, header, hpending⟩ := hblocks
    simp [Settled, hpending]
  | some level =>
    obtain ⟨-, -, -, hpending⟩ := hblocks
    exact settled_of_pending hpending

/-- An indented line among the states is a transition of the current one, or has the indentation of the
states. -/
theorem InRules.enters_iff {unit : Indent} {inner : Option Indent} {s : Ast.State}
    (hr : r.InRules unit inner s) (hline : line.indent ≠ []) :
    Enters r line r₁ ↔
      Follows unit inner line.indent ∧ r₁ = r.inState unit line.indent ∨
        line.indent = unit ∧ r₁ = r.inside .rules unit := by
  have hblocks := hr.blocks
  cases inner with
  | none =>
    obtain ⟨hcontexts, hindents, header, hpending⟩ := hblocks
    rw [Reader.enters_iff hindents hcontexts]
    constructor
    · rintro (⟨block, _, hp, hdeeper, rfl⟩ | ⟨-, -, closed, inner, hclose, rfl⟩)
      · rw [hpending] at hp
        cases hp
        exact .inl ⟨.inr ⟨rfl, hdeeper⟩, rfl⟩
      · obtain ⟨hunit, rfl, rfl⟩ := (IndentStack.closeTo_singleton_iff hline).1 hclose
        exact .inr ⟨hunit, rfl⟩
    · rintro (⟨hfollows | ⟨-, hdeeper⟩, rfl⟩ | ⟨hunit, rfl⟩)
      · cases hfollows
      · exact .inl ⟨_, header, hpending, hdeeper, rfl⟩
      · refine .inr ⟨hr.settled, fun h => h.2 hunit.symm, 0, [unit], ?_, rfl⟩
        exact (IndentStack.closeTo_singleton_iff hline).2 ⟨hunit, rfl, rfl⟩
  | some level =>
    obtain ⟨⟨hbelow, hne⟩, hcontexts, hindents, hpending⟩ := hblocks
    rw [Reader.enters_iff hindents hcontexts]
    constructor
    · rintro (⟨_, _, hp, _⟩ | ⟨-, -, closed, inner, hclose, rfl⟩)
      · rw [hpending] at hp
        cases hp
      · rcases (IndentStack.closeTo_pair_iff hline hne).1 hclose with ⟨hlevel, rfl, rfl⟩ | ⟨hunit, rfl, rfl⟩
        · exact .inl ⟨.inl (by rw [hlevel]), by rw [hlevel]; rfl⟩
        · exact .inr ⟨hunit, rfl⟩
    · rintro (⟨hfollows | ⟨hnone, -⟩, rfl⟩ | ⟨hunit, rfl⟩)
      · cases hfollows
        refine .inr ⟨hr.settled, fun h => h.2 rfl, 0, [line.indent, unit], ?_, rfl⟩
        exact (IndentStack.closeTo_pair_iff hline hne).2 (.inl ⟨rfl, rfl, rfl⟩)
      · cases hnone
      · -- the states are indented less than their transitions
        have hnot : ¬(level <+: line.indent ∧ level ≠ line.indent) := by
          rintro ⟨hle, -⟩
          rw [hunit] at hle
          exact hne (hbelow.eq_of_length_le hle.length_le)
        refine .inr ⟨hr.settled, hnot, 1, [unit], ?_, rfl⟩
        exact (IndentStack.closeTo_pair_iff hline hne).2 (.inr ⟨hunit, rfl, rfl⟩)

theorem findState?_eq_none_iff {name : String} :
    r.findState? name = none ↔ name ∉ r.readStates.map Ast.State.name := by
  rw [map_name_readStates, findState?, List.find?_eq_none, List.mem_map]
  simp

theorem handles_header_iff (hcontext : r.contexts.head? = some .rules) :
    Handles r line r' ↔
      ∃ name, LineRule.stateHeader.parse line.content = .ok name ∧
        name ∉ r.readStates.map Ast.State.name ∧
        r' = { r with
          states := r.readStates
          current := some ⟨name, [], line.place r.file⟩
          pending := some (.state, line) } := by
  constructor
  · intro h
    cases h with
    | header _ value fresh => exact ⟨_, value, findState?_eq_none_iff.1 fresh, by rw [flush_eq]; rfl⟩
    | directive context | row context | transition context =>
      rw [hcontext] at context
      cases context
  · rintro ⟨name, hname, hfresh, rfl⟩
    have h := Handles.header hcontext hname (findState?_eq_none_iff.2 hfresh)
    rwa [flush_eq] at h

theorem handles_transition_iff {s : Ast.State} (hcontext : r.contexts.head? = some .state)
    (hcurrent : r.current = some s) :
    Handles r line r' ↔
      ∃ t, ReadsTransition r.file line t ∧
        r' = { r with current := some { s with transitions := t :: s.transitions } } := by
  constructor
  · intro h
    cases h with
    | transition _ value even current =>
      rw [hcurrent] at current
      cases current
      exact ⟨_, ⟨value, even⟩, rfl⟩
    | directive context | row context | header context =>
      rw [hcontext] at context
      cases context
  · rintro ⟨t, ⟨hvalue, heven⟩, rfl⟩
    exact .transition hcontext hvalue heven hcurrent

/-- The reader after a transition of the current state `s`. -/
def afterTransition (r : Reader) (unit : Indent) (s : Ast.State) (line : Line) (t : Ast.Transition) :
    Reader :=
  { r.inState unit line.indent with
    current := some { s with transitions := t :: s.transitions.reverse } }

/-- The reader after the header of a state. -/
def afterHeader (r : Reader) (unit : Indent) (line : Line) (name : String) : Reader :=
  { r.inside .rules unit with
    states := r.readStates
    current := some ⟨name, [], line.place r.file⟩
    pending := some (.state, line) }

theorem readStates_afterHeader (r : Reader) (unit : Indent) (line : Line) (name : String) :
    (r.afterHeader unit line name).readStates = ⟨name, [], line.place r.file⟩ :: r.readStates := rfl

/-- The first line below the header of the rules is the header of a state. -/
theorem feed_first_header_iff {header : Line} (hline : line.indent ≠ []) :
    (r.below .rules header).feed line = .ok r' ↔
      ∃ name, LineRule.stateHeader.parse line.content = .ok name ∧
        name ∉ r.readStates.map Ast.State.name ∧ r' = r.afterHeader line.indent line name := by
  rw [feed_eq_ok_iff]
  constructor
  · rintro ⟨r₁, henters, hhandles⟩
    obtain rfl := (enters_below_iff hline).1 henters
    exact (handles_header_iff rfl).1 hhandles
  · intro h
    exact ⟨_, (enters_below_iff hline).2 rfl, (handles_header_iff rfl).2 h⟩

section InRules

variable {unit : Indent} {inner : Option Indent} {s : Ast.State}

/-- An indented line among the states is a transition or a header. -/
theorem InRules.feed_iff (hr : r.InRules unit inner s) (hline : line.indent ≠ []) :
    r.feed line = .ok r' ↔
      (∃ t, Follows unit inner line.indent ∧ ReadsTransition r.file line t ∧
        r' = r.afterTransition unit s line t) ∨
      (∃ name, line.indent = unit ∧ LineRule.stateHeader.parse line.content = .ok name ∧
        name ∉ r.readStates.map Ast.State.name ∧ r' = r.afterHeader unit line name) := by
  have htransition : Handles (r.inState unit line.indent) line r' ↔
      ∃ t, ReadsTransition r.file line t ∧ r' = r.afterTransition unit s line t :=
    handles_transition_iff (r := r.inState unit line.indent) rfl hr.current
  rw [feed_eq_ok_iff]
  constructor
  · rintro ⟨r₁, henters, hhandles⟩
    rcases (hr.enters_iff hline).1 henters with ⟨hfollows, rfl⟩ | ⟨hunit, rfl⟩
    · obtain ⟨t, ht, rfl⟩ := htransition.1 hhandles
      exact .inl ⟨t, hfollows, ht, rfl⟩
    · obtain ⟨name, hname, hfresh, rfl⟩ := (handles_header_iff rfl).1 hhandles
      exact .inr ⟨name, hunit, hname, hfresh, rfl⟩
  · rintro (⟨t, hfollows, ht, rfl⟩ | ⟨name, hunit, hname, hfresh, rfl⟩)
    · refine ⟨_, (hr.enters_iff hline).2 (.inl ⟨hfollows, rfl⟩), ?_⟩
      exact htransition.2 ⟨t, ht, rfl⟩
    · refine ⟨_, (hr.enters_iff hline).2 (.inr ⟨hunit, rfl⟩), ?_⟩
      exact (handles_header_iff rfl).2 ⟨name, hname, hfresh, rfl⟩

theorem InRules.afterTransition (hr : r.InRules unit inner s)
    (hfollows : Follows unit inner line.indent) (t : Ast.Transition) :
    (r.afterTransition unit s line t).InRules unit (some line.indent)
      { s with transitions := s.transitions ++ [t] } := by
  refine ⟨hr.unit_ne, by simp [Reader.afterTransition], ?_, rfl, rfl, rfl⟩
  rcases hfollows with rfl | ⟨-, hdeeper⟩
  · exact hr.blocks.1
  · exact hdeeper

theorem inRules_afterHeader (hunit : unit ≠ []) (name : String) :
    (r.afterHeader unit line name).InRules unit none ⟨name, [], line.place r.file⟩ :=
  ⟨hunit, rfl, rfl, rfl, line, rfl⟩

theorem InRules.readStates_eq (hr : r.InRules unit inner s) : r.readStates = s :: r.states := by
  simp [readStates, hr.current]

/-- What the block of the states leaves alone. -/
def frame (r : Reader) : Reader := { r.outside with states := [], current := none }

/-- Lines that continue the block of the states are read. -/
theorem InRules.exists_feedAll {file : String} {known : List String} {states : List Ast.State}
    (h : ReadsOn file unit inner known s lines states) (hlines : ∀ line ∈ lines, line.indent ≠ [])
    (hr : r.InRules unit inner s) (hfile : r.file = file)
    (hknown : r.readStates.map Ast.State.name = known) :
    ∃ r', r.feedAll lines = .ok r' ∧ r'.frame = r.frame ∧ r'.Settled ∧
      r'.readStates = states.reverse ++ r.states := by
  induction h generalizing r with
  | stop => exact ⟨r, rfl, rfl, hr.settled, by simp [hr.readStates_eq]⟩
  | @transition inner known s line lines t states follows value rest ih =>
    rw [List.forall_mem_cons] at hlines
    subst hfile
    have hfeed := (hr.feed_iff hlines.1).2 (.inl ⟨t, follows, value, rfl⟩)
    have hnext := hr.afterTransition follows t
    have hnames : (r.afterTransition unit s line t).readStates.map Ast.State.name = known := by
      rw [← hknown, hnext.readStates_eq, hr.readStates_eq]
      rfl
    obtain ⟨r', h', hframe, hsettled, hstates⟩ := ih hlines.2 hnext rfl hnames
    exact ⟨r', feedAll_cons_eq_ok_iff.2 ⟨_, hfeed, h'⟩, hframe, hsettled, hstates⟩
  | @header inner known s line lines name states indent value fresh rest ih =>
    rw [List.forall_mem_cons] at hlines
    subst hfile hknown
    have hfeed := (hr.feed_iff hlines.1).2 (.inr ⟨name, indent, value, fresh, rfl⟩)
    have hnext : (r.afterHeader unit line name).InRules unit none ⟨name, [], line.place r.file⟩ :=
      inRules_afterHeader hr.unit_ne name
    have hnames : (r.afterHeader unit line name).readStates.map Ast.State.name =
        name :: r.readStates.map Ast.State.name := by
      rw [readStates_afterHeader, List.map_cons]
    obtain ⟨r', h', hframe, hsettled, hstates⟩ := ih hlines.2 hnext rfl hnames
    refine ⟨r', feedAll_cons_eq_ok_iff.2 ⟨_, hfeed, h'⟩, hframe, hsettled, ?_⟩
    -- the header has put the state before it among the finished ones
    have hbefore : (r.afterHeader unit line name).states = s :: r.states := hr.readStates_eq
    rw [hstates, hbefore]
    simp

/-- Lines that are read in the block of the states continue it. -/
theorem InRules.exists_readsOn (hr : r.InRules unit inner s)
    (hlines : ∀ line ∈ lines, line.indent ≠ []) (h : r.feedAll lines = .ok r') :
    ∃ states, ReadsOn r.file unit inner (r.readStates.map Ast.State.name) s lines states := by
  induction lines generalizing r inner s with
  | nil => exact ⟨[s], .stop⟩
  | cons line lines ih =>
    rw [List.forall_mem_cons] at hlines
    obtain ⟨r₁, h₁, h⟩ := feedAll_cons_eq_ok_iff.1 h
    rcases (hr.feed_iff hlines.1).1 h₁ with
      ⟨t, hfollows, ht, rfl⟩ | ⟨name, hunit, hname, hfresh, rfl⟩
    · have hnext := hr.afterTransition hfollows t
      obtain ⟨states, hstates⟩ := ih hnext hlines.2 h
      rw [hnext.readStates_eq] at hstates
      refine ⟨states, .transition hfollows ht ?_⟩
      rw [hr.readStates_eq]
      exact hstates
    · have hnext : (r.afterHeader unit line name).InRules unit none ⟨name, [], line.place r.file⟩ :=
        inRules_afterHeader hr.unit_ne name
      obtain ⟨states, hstates⟩ := ih hnext hlines.2 h
      rw [readStates_afterHeader, List.map_cons] at hstates
      exact ⟨s :: states, .header hunit hname hfresh hstates⟩

end InRules

end Reader

end TapeLang
