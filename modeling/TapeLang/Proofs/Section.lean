import Mathlib
import TapeLang.Proofs.Stage
import TapeLang.Proofs.WrittenLine

/-!
# Reading the sections of a written tree

* `Gist.withName`, `Gist.withTape`, `Gist.withHead`, `Gist.withBlank`, `Gist.withStates`: what each
  section adds to what has been collected;
* `continues_name`, `continues_tape`, `continues_head`, `continues_blank`, `continues_rules`: every section
  of the text of a tree is read, wherever a directive may stand.
-/

namespace TapeLang

open Ast

variable {g : Gist} {r : Reader} {layout : Layout}

/-! ### What the sections add -/

namespace Gist

/-- With the name of the program. -/
def withName (g : Gist) (d : Option NameDecl) : Gist :=
  { g with
    seen := (d.map fun _ => .name).toList ++ g.seen
    name := (d.map NameDecl.unlocated).or g.name }

/-- With the tapes. -/
def withTape (g : Gist) (d : TapeDecl) : Gist :=
  { g with
    seen := (if d.multi then .tapes else .tape) :: g.seen
    tape := if d.multi then g.tape else some d.unlocated
    rows := if d.multi then (d.rows.map (List.map Ast.Symbol.unlocated)).reverse ++ g.rows else g.rows }

/-- With the heads. -/
def withHead (g : Gist) (d : Option HeadDecl) : Gist :=
  { g with
    seen := (d.map fun d => if d.multi then .heads else .head).toList ++ g.seen
    head := (d.map HeadDecl.unlocated).or g.head }

/-- With the blank symbol. -/
def withBlank (g : Gist) (d : Option BlankDecl) : Gist :=
  { g with
    seen := (d.map fun _ => .blank).toList ++ g.seen
    blank := (d.map BlankDecl.unlocated).or g.blank }

/-- With more states, which are kept last first. -/
def withStates (g : Gist) (states : List Ast.State) : Gist :=
  { g with states := (states.map Ast.State.unlocated).reverse ++ g.states }

end Gist

/-! ### Directives on one line -/

theorem isDone_base (g : Gist) : Stage.IsDone ⟨[], none, g⟩ := ⟨⟨by simp, by simp⟩, by simp⟩

theorem continues_directive {g' : Gist} {d : Directive} {rest : List Char}
    (hcontent : IsContent (directive d rest)) (hfresh : g.IsFresh d)
    (declares : ∀ r line offset, r.Stands ⟨[], none, g.note d⟩ →
      ∃ r', Reader.Declares r line offset rest d r' ∧ r'.Stands ⟨[], none, g'⟩) :
    Continues g [directive d rest] g' := by
  rintro S rfl hS
  exact ⟨⟨[], none, g'⟩, hS.leads_directive hcontent hfresh declares, rfl, isDone_base g'⟩

theorem continues_name {d : NameDecl} (h : d.IsWritable) (hfresh : g.IsFresh .name) :
    Continues g [d.source] (g.withName (some d)) := by
  have htrim : Text.trim (' ' :: d.text.toList) = d.text.toList := h.trimmed
  refine continues_directive (isContent_name h) hfresh fun r line offset hr => ?_
  refine ⟨_, .name (by rw [htrim]; exact h.ne_nil), ?_⟩
  refine hr.collect rfl rfl rfl id fun hgist => ?_
  show { r.gist with name := some ⟨String.ofList (Text.trim (' ' :: d.text.toList)), {}⟩ } = _
  rw [hgist, htrim, String.ofList_toList]
  rfl

theorem continues_single_tape {row : List Ast.Symbol} (h : ∀ s ∈ row, s.spelling.IsWritable)
    (hfresh : g.IsFresh .tape) (loc : Location) :
    Continues g [directive .tape (if row = [] then [] else ' ' :: listing (sources row))]
      (g.withTape ⟨[row], false, loc⟩) := by
  have hcontent : IsContent (directive .tape (if row = [] then [] else ' ' :: listing (sources row))) := by
    have hparts := inline_sources h
    split
    · exact isContent_directive _ .nil (by simp [Solid])
    · next hrow =>
      obtain ⟨s, row, rfl⟩ := List.exists_cons_of_ne_nil hrow
      have hinline := inline_listing fun x hx => (hparts x hx).1
      have hsolid := solid_listing fun x hx => (hparts x hx).2
      have hne : listing (sources (s :: row)) ≠ [] :=
        LineRule.listing_ne_nil (hparts _ List.mem_cons_self).2.1 _
      exact isContent_directive _ (.plain (by decide) (by decide) hinline) (hsolid.append_left hne [' '])
  refine continues_directive hcontent hfresh fun r line offset hr => ?_
  obtain ⟨row', hrow', hvalues⟩ := (LineRule.takes_tapeValue (r.here line offset) h).parse
  refine ⟨_, .tape hrow', ?_⟩
  refine hr.collect rfl rfl rfl id fun hgist => ?_
  have htape : TapeDecl.unlocated ⟨[row'], false, r.locate line⟩ =
      TapeDecl.unlocated ⟨[row], false, loc⟩ := by
    simp [TapeDecl.unlocated, hvalues]
  show { r.gist with tape := some (TapeDecl.unlocated ⟨[row'], false, r.locate line⟩) } = _
  rw [hgist, htape]
  rfl

theorem continues_head {d : HeadDecl} (h : d.IsWritable) (hhead : g.IsFresh .head)
    (hheads : g.IsFresh .heads) : Continues g [d.source] (g.withHead (some d)) := by
  obtain ⟨positions, multi, loc⟩ := d
  cases multi with
  | true =>
    have hparts : ∀ x ∈ positions.map numeral, Inline x := by
      intro x hx
      obtain ⟨y, -, rfl⟩ := List.mem_map.1 hx
      exact (inline_numeral y).1
    obtain ⟨hinline, hsolid⟩ := inline_vector hparts
    have hcontent := isContent_directive .heads (.plain (by decide) (by decide) hinline)
      (hsolid.append_left (List.cons_ne_nil _ _) [' '])
    refine continues_directive hcontent hheads fun r line offset hr => ?_
    obtain ⟨numerals, hvalue, rfl⟩ := (LineRule.takes_headsValue positions).parse
    have hnumbers : List.Forall₂ (fun ds x => Reader.readIndex ds = .ok x) (positions.map numeral)
        positions := by
      rw [List.forall₂_map_left_iff, List.forall₂_same]
      intro x hx
      exact Reader.readIndex_eq_ok_iff.2 (LineRule.numeral?_numeral (h.nonneg x hx) (h.digits x hx))
    refine ⟨_, .heads hvalue hnumbers, hr.collect rfl rfl rfl id fun hgist => ?_⟩
    show { r.gist with head := some ⟨positions, true, {}⟩ } = _
    rw [hgist]
    rfl
  | false =>
    obtain ⟨x, hx⟩ := List.length_eq_one_iff.1 (h.single rfl)
    dsimp only at hx
    subst hx
    obtain ⟨hinline, hsolid⟩ := inline_numeral x
    have hsource : HeadDecl.source ⟨[x], false, loc⟩ = directive .head (' ' :: numeral x) := by
      simp [HeadDecl.source, LineRule.listing_singleton]
    have hcontent := isContent_directive .head (.plain (by decide) (by decide) hinline)
      (hsolid.append_left Nat.toDigits_ne_nil [' '])
    rw [hsource]
    refine continues_directive hcontent hhead fun r line offset hr => ?_
    obtain ⟨digits, hvalue, rfl⟩ := (LineRule.takes_headValue x).parse
    obtain ⟨n, hnumber, hn⟩ := LineRule.numeral?_numeral (h.nonneg x List.mem_cons_self)
      (h.digits x List.mem_cons_self)
    refine ⟨_, .head hvalue hnumber, hr.collect rfl rfl rfl id fun hgist => ?_⟩
    show { r.gist with head := some ⟨[(n : Int)], false, {}⟩ } = _
    rw [hgist, hn]
    rfl

theorem continues_blank {d : BlankDecl} (h : d.IsWritable) (hfresh : g.IsFresh .blank) :
    Continues g [d.source] (g.withBlank (some d)) := by
  obtain ⟨c, hc, hinline⟩ := h
  have hsource : d.source = directive .blank (' ' :: '\'' :: ([c] ++ ['\''])) := by
    simp [BlankDecl.source, hc]
  have hcontent : IsContent (directive .blank (' ' :: '\'' :: ([c] ++ ['\'']))) := by
    refine isContent_directive _ (.plain (by decide) (by decide) (.quoted hinline .nil)) ?_
    exact Solid.append_left (solid_singleton rfl) (by decide) [' ', '\'', c]
  rw [hsource]
  refine continues_directive hcontent hfresh fun r line offset hr => ?_
  obtain ⟨s, hs, hvalue⟩ := (LineRule.takes_blankValue (r.here line offset) hinline).parse
  refine ⟨_, .blank hs, hr.collect rfl rfl rfl id fun hgist => ?_⟩
  show { r.gist with blank := some ⟨s.spelling.value, {}⟩ } = _
  rw [hgist, hvalue, ← hc]
  rfl

/-- A directive that opens a block. -/
theorem leads_opening {S : Stage} (hS : S.IsDone) {d : Directive} (hfresh : S.gist.IsFresh d)
    {b : Block} (hb : b ≠ .state)
    (declares : ∀ r line offset,
      Reader.Declares r line offset [] d { r with pending := some (b, line) }) :
    Leads S [directive d []] ⟨[], some b, S.gist.note d⟩ := by
  refine hS.leads_directive (isContent_directive _ .nil (by simp [Solid])) hfresh
    fun r line offset hr => ⟨_, declares r line offset, ?_⟩
  exact ⟨hr.contexts, hr.indents, rfl, by simp [hb], hr.gist⟩

/-! ### The rows of the tapes -/

theorem leads_row {S : Stage} (hadmits : Admits S layout.row [(.tapes, layout.row)])
    {row : List Ast.Symbol} (h : ∀ s ∈ row, s.spelling.IsWritable) :
    Leads S [layout.row ++ vector (sources row)]
      ⟨[(.tapes, layout.row)], none,
        { S.gist with rows := row.map Ast.Symbol.unlocated :: S.gist.rows }⟩ := by
  refine hadmits.leads layout.row_unit.blank (isContent_row h) fun r line hline hr => ?_
  obtain ⟨row', hrow', hvalues⟩ := (LineRule.takes_tapeRow (r.here line line.indent.length) h).parse
  refine ⟨_, .row (by rw [hr.contexts]; rfl) (by rw [hline]; exact hrow'), ?_⟩
  refine hr.collect rfl rfl rfl id fun hgist => ?_
  show { r.gist with rows := row'.map Ast.Symbol.unlocated :: r.gist.rows } = _
  rw [hgist, hvalues]

theorem leads_rows {rows : List (List Ast.Symbol)} (h : ∀ row ∈ rows, ∀ s ∈ row, s.spelling.IsWritable)
    (g : Gist) :
    Leads ⟨[(.tapes, layout.row)], none, g⟩ (rows.map fun row => layout.row ++ vector (sources row))
      ⟨[(.tapes, layout.row)], none,
        { g with rows := (rows.map (List.map Ast.Symbol.unlocated)).reverse ++ g.rows }⟩ := by
  induction rows generalizing g with
  | nil => exact .refl _
  | cons row rows ih =>
    rw [List.forall_mem_cons] at h
    have hadmits : Admits ⟨[(.tapes, layout.row)], none, g⟩ layout.row [(.tapes, layout.row)] :=
      admits_same (by simp)
    have hleads := (leads_row hadmits h.1).append (ih h.2 _)
    simpa using hleads

/-- The section of the tapes. -/
theorem continues_tape {d : TapeDecl} (h : d.IsWritable) (htape : g.IsFresh .tape)
    (htapes : g.IsFresh .tapes) : Continues g (d.sourceLines layout) (g.withTape d) := by
  obtain ⟨rows, multi, loc⟩ := d
  cases multi with
  | true =>
    rintro S rfl hS
    obtain ⟨row, rows, rfl⟩ := List.exists_cons_of_ne_nil h.rows_ne
    have hsymbols := h.symbols
    rw [List.forall_mem_cons] at hsymbols
    have hheader := leads_opening hS htapes (by simp) fun r line offset => .tapes rfl
    have hfirst : Admits ⟨[], some .tapes, S.gist.note .tapes⟩ layout.row [(.tapes, layout.row)] :=
      admits_awaited List.nil_prefix layout.row_unit.ne_nil.symm
    refine ⟨_, hheader.append ((leads_row hfirst hsymbols.1).append (leads_rows hsymbols.2 _)), ?_, ?_⟩
    · simp [Gist.withTape, Gist.note]
    · exact ⟨⟨by simp, by simp⟩, by simpa using layout.row_unit.ne_nil⟩
  | false =>
    obtain ⟨row, hrow⟩ := List.length_eq_one_iff.1 (h.single rfl)
    dsimp only at hrow
    subst hrow
    exact continues_single_tape (h.symbols row List.mem_cons_self) htape loc

/-! ### The states -/

theorem leads_header {S : Stage} (hadmits : Admits S layout.state [(.rules, layout.state)])
    {name : String} (hname : IsStateName name) (hfresh : name ∉ S.gist.states.map Ast.State.name) :
    Leads S [layout.state ++ (name.toList ++ [':'])]
      ⟨[(.rules, layout.state)], some .state,
        { S.gist with states := ⟨name, [], {}⟩ :: S.gist.states }⟩ := by
  refine hadmits.leads layout.state_unit.blank (isContent_header hname) fun r line hline hr => ?_
  obtain ⟨name', hname', rfl⟩ := (LineRule.takes_stateHeader hname).parse
  have hnames : S.gist.states.map Ast.State.name =
      (r.current.toList ++ r.states).map Ast.State.name := by
    rw [← hr.gist, ← Reader.map_name_readStates]
    exact List.map_map
  have hfind : r.findState? name' = none := by
    rw [Reader.findState?, List.find?_eq_none]
    intro s hs heq
    rw [hnames] at hfresh
    exact hfresh (List.mem_map.2 ⟨s, hs, by simpa using heq⟩)
  refine ⟨_, .header (by rw [hr.contexts]; rfl) (by rw [hline]; exact hname') hfind, ?_⟩
  refine ⟨?_, ?_, rfl, fun _ => rfl, ?_⟩
  · rw [Reader.flush_eq]
    exact hr.contexts
  · rw [Reader.flush_eq]
    exact hr.indents
  · rw [Reader.gist, Reader.readStates_header, Reader.flush_eq, ← hr.gist]
    rfl

/-- The lengths of the vectors do not depend on the places. -/
theorem vectorViolation?_unlocated (t : Ast.Transition) :
    t.unlocated.vectorViolation? = t.vectorViolation? := by
  obtain ⟨read, write, moves, next, multi, loc⟩ := t
  cases write <;> simp [Ast.Transition.vectorViolation?, Ast.Transition.unlocated]

theorem vectorViolation?_of_isWritable {t : Ast.Transition} (h : t.IsWritable) :
    t.vectorViolation? = none := by
  have hread : t.read.isEmpty = false := by simpa using h.read_ne
  have hwrite : (t.write.map List.length).getD t.read.length = t.read.length := by
    cases hw : t.write with
    | none => rfl
    | some w => exact h.write_length w hw
  simp [Ast.Transition.vectorViolation?, hread, hwrite, h.moves_length]

/-- The gist with one more transition of the state that is being read. -/
def Gist.withTransitions (g : Gist) (s : Ast.State) (others : List Ast.State)
    (ts : List Ast.Transition) : Gist :=
  { g with states := { s with transitions := s.transitions ++ ts.map Ast.Transition.unlocated } :: others }

theorem leads_transition {S : Stage} {inner : Indent} {outer : List (Block × Indent)}
    (hadmits : Admits S inner ((.state, inner) :: outer)) (hblank : ∀ c ∈ inner, Text.isBlank c = true)
    {t : Ast.Transition} (h : t.IsWritable) {s : Ast.State} {others : List Ast.State}
    (hstates : S.gist.states = s :: others) :
    Leads S [inner ++ t.source]
      ⟨(.state, inner) :: outer, none, S.gist.withTransitions s others [t]⟩ := by
  refine hadmits.leads hblank (isContent_transition h) fun r line hline hr => ?_
  obtain ⟨t', ht', hunlocated⟩ :=
    (LineRule.takes_transition (r.here line line.indent.length) h).parse
  have heven : t'.vectorViolation? = none := by
    rw [← vectorViolation?_unlocated, hunlocated, vectorViolation?_unlocated]
    exact vectorViolation?_of_isWritable h
  obtain ⟨s', hs'⟩ := Option.isSome_iff_exists.1 (hr.current (.inl List.mem_cons_self))
  obtain ⟨hnew, hold⟩ := Reader.readStates_transition hs' t'
  refine ⟨_, .transition (by rw [hr.contexts]; rfl) (by rw [hline]; exact ht') heven hs', ?_⟩
  refine hr.collect rfl rfl rfl (fun _ => rfl) fun hgist => ?_
  have hread : r.readStates.map Ast.State.unlocated = s :: others :=
    (congrArg Gist.states hgist).trans hstates
  rw [hold, List.map_cons, List.cons.injEq] at hread
  rw [Reader.gist, hnew, Gist.withTransitions, ← hgist, ← hread.1, ← hread.2]
  simp [Reader.gist, Ast.State.unlocated, hunlocated]

theorem leads_transitions {S : Stage} {inner : Indent} {outer : List (Block × Indent)}
    (hadmits : Admits S inner ((.state, inner) :: outer)) (hblank : ∀ c ∈ inner, Text.isBlank c = true)
    {t : Ast.Transition} {ts : List Ast.Transition} (h : ∀ x ∈ t :: ts, x.IsWritable) {s : Ast.State}
    {others : List Ast.State} (hstates : S.gist.states = s :: others) :
    Leads S ((t :: ts).map fun x => inner ++ x.source)
      ⟨(.state, inner) :: outer, none, S.gist.withTransitions s others (t :: ts)⟩ := by
  induction ts generalizing S s t with
  | nil => exact leads_transition hadmits hblank (h t List.mem_cons_self) hstates
  | cons t' ts ih =>
    rw [List.forall_mem_cons] at h
    have hfirst := leads_transition hadmits hblank h.1 hstates
    have hrest := ih (S := ⟨(.state, inner) :: outer, none, S.gist.withTransitions s others [t]⟩)
      (admits_same (by simp)) h.2 rfl
    simpa [Gist.withTransitions] using hfirst.append hrest

/-- A state with its transitions; the next state may follow, or a directive. -/
theorem leads_state {S : Stage} (hadmits : Admits S layout.state [(.rules, layout.state)])
    {s : Ast.State} (hname : IsStateName s.name) (htransitions : ∀ t ∈ s.transitions, t.IsWritable)
    (hfresh : s.name ∉ S.gist.states.map Ast.State.name) :
    ∃ S', Leads S (s.sourceLines layout) S' ∧ S'.gist = S.gist.withStates [s] ∧ S'.IsDone ∧
      Admits S' layout.state [(.rules, layout.state)] := by
  have hheader := leads_header hadmits hname hfresh
  have hstate := layout.state_unit.ne_nil
  obtain ⟨hextends, hne⟩ := layout.transition_deeper s.name
  have hunit := layout.transition_unit s.name
  obtain ⟨name, transitions, loc⟩ := s
  cases transitions with
  | nil =>
    -- no block is opened below the header, and the next state closes none
    refine ⟨_, hheader, by simp [Gist.withStates, Ast.State.unlocated], ?_, ?_⟩
    · exact ⟨by simp, by simpa using hstate⟩
    · exact admits_same (by simp)
  | cons t ts =>
    have hopens : Admits
        ⟨[(.rules, layout.state)], some .state,
          { S.gist with states := ⟨name, [], {}⟩ :: S.gist.states }⟩
        (layout.transition name) [(.state, layout.transition name), (.rules, layout.state)] :=
      admits_awaited hextends hne
    have hrest := leads_transitions hopens hunit.blank htransitions rfl
    refine ⟨_, hheader.append hrest, ?_, ⟨by simp, ?_⟩, ?_⟩
    · simp [Gist.withStates, Gist.withTransitions, Ast.State.unlocated]
    · simpa using ⟨hunit.ne_nil, hstate⟩
    · exact admits_open [(.state, layout.transition name)] (by simp) (by simpa using hne.symm) rfl hextends

theorem leads_states {states : List Ast.State} (hname : ∀ s ∈ states, IsStateName s.name)
    (htransitions : ∀ s ∈ states, ∀ t ∈ s.transitions, t.IsWritable)
    (hdistinct : (states.map Ast.State.name).Nodup) {S : Stage} (hS : states = [] → S.IsDone)
    (hadmits : Admits S layout.state [(.rules, layout.state)])
    (hfresh : ∀ s ∈ states, s.name ∉ S.gist.states.map Ast.State.name) :
    ∃ S', Leads S (states.flatMap (Ast.State.sourceLines layout)) S' ∧
      S'.gist = S.gist.withStates states ∧ S'.IsDone := by
  induction states generalizing S with
  | nil => exact ⟨S, .refl S, by simp [Gist.withStates], hS rfl⟩
  | cons s states ih =>
    rw [List.forall_mem_cons] at hname htransitions hfresh
    rw [List.map_cons, List.nodup_cons] at hdistinct
    obtain ⟨S₁, hleads₁, hgist₁, hdone₁, hadmits₁⟩ :=
      leads_state hadmits hname.1 htransitions.1 hfresh.1
    have hfresh₁ : ∀ s' ∈ states, s'.name ∉ S₁.gist.states.map Ast.State.name := by
      intro s' hs' hmem
      rw [hgist₁] at hmem
      simp only [Gist.withStates, List.map_cons, List.map_nil, List.reverse_singleton,
        List.singleton_append, List.mem_cons] at hmem
      rcases hmem with hmem | hmem
      · exact hdistinct.1 (List.mem_map.2 ⟨s', hs', hmem⟩)
      · exact hfresh.2 s' hs' hmem
    obtain ⟨S₂, hleads₂, hgist₂, hdone₂⟩ :=
      ih hname.2 htransitions.2 hdistinct.2 (fun _ => hdone₁) hadmits₁ hfresh₁
    refine ⟨S₂, hleads₁.append hleads₂, ?_, hdone₂⟩
    rw [hgist₂, hgist₁]
    simp [Gist.withStates]

/-- The section of the rules. -/
theorem continues_rules {states : List Ast.State} (hne : states ≠ [])
    (hname : ∀ s ∈ states, IsStateName s.name)
    (htransitions : ∀ s ∈ states, ∀ t ∈ s.transitions, t.IsWritable)
    (hdistinct : (states.map Ast.State.name).Nodup) (hfresh : g.IsFresh .rules)
    (hstates : g.states = []) :
    Continues g (directive .rules [] :: states.flatMap (Ast.State.sourceLines layout))
      ((g.note .rules).withStates states) := by
  rintro S rfl hS
  have hheader := leads_opening hS hfresh (by simp) fun r line offset => .rules rfl
  have hadmits : Admits ⟨[], some .rules, S.gist.note .rules⟩ layout.state
      [(.rules, layout.state)] :=
    admits_awaited List.nil_prefix layout.state_unit.ne_nil.symm
  obtain ⟨S', hleads, hgist, hdone⟩ := leads_states hname htransitions hdistinct
    (fun h => absurd h hne) hadmits (fun s _ => by simp [Gist.note, hstates])
  exact ⟨S', hheader.append hleads, hgist, hdone⟩

end TapeLang
