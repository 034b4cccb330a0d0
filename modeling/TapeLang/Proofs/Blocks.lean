import Mathlib
import TapeLang.Proofs.Reader

/-!
# The blocks while a text is read

The reader keeps the open blocks twice: as a stack of indentation levels and as a stack of kinds of
blocks, with a header that may be pending on top of both. `Reader.Nested` says how these stay in step,
and it is preserved by every line. It follows that no line is left without a block.

* `IndentStack.IsChained`: every level is a proper prefix of the next;
* `Reader.Nested`, `Reader.Nested.feedAll`: the invariant, from one line to all;
* `ReadError.Allowed`, `Reader.Nested.allowed_of_feed`: the errors that a line can cause;
* `parse_eq_error`: the errors that reading a text can end in;
* `blocks_nest_and_reading_ends`: the blocks after every line, and how reading a text can end.
-/

namespace TapeLang

namespace IndentStack

variable {s : IndentStack} {indent : Indent}

/-- The levels, outermost first, are each a proper prefix of the next. -/
def IsChained (s : IndentStack) : Prop :=
  s.levels.IsChain fun outer inner => outer <+: inner ∧ outer ≠ inner

/-- So each of them is a proper prefix of all that follow. -/
theorem IsChained.pairwise (h : s.IsChained) :
    s.levels.Pairwise fun outer inner => outer <+: inner ∧ outer ≠ inner := by
  have htrans : IsTrans Indent fun outer inner => outer <+: inner ∧ outer ≠ inner := by
    refine ⟨fun a b c hab hbc => ⟨hab.1.trans hbc.1, ?_⟩⟩
    rintro rfl
    exact hab.2 (hab.1.eq_of_length_le hbc.1.length_le)
  exact List.isChain_iff_pairwise.1 h

theorem isDeeper_iff : s.isDeeper indent = true ↔ s.top <+: indent ∧ s.top ≠ indent := by
  simp only [isDeeper, Bool.and_eq_true, decide_eq_true_eq, List.isPrefixOf_iff_prefix]
  constructor
  · rintro ⟨hlt, hpre⟩
    exact ⟨hpre, fun h => by rw [h] at hlt; omega⟩
  · rintro ⟨hpre, hne⟩
    exact ⟨lt_of_le_of_ne hpre.length_le fun h => hne (hpre.eq_of_length h), hpre⟩

theorem getLast?_levels (s : IndentStack) : s.levels.getLast? = some s.top := by
  unfold levels top
  cases s.inner with
  | nil => rfl
  | cons level inner =>
    rw [List.reverse_cons, ← List.cons_append, List.getLast?_concat]
    rfl

theorem levels_opened (s : IndentStack) (indent : Indent) :
    levels { s with inner := indent :: s.inner } = s.levels ++ [indent] := by
  simp [levels]

theorem IsChained.opened (hs : s.IsChained) (hd : s.isDeeper indent = true) :
    IsChained { s with inner := indent :: s.inner } := by
  unfold IsChained
  rw [levels_opened, List.isChain_append]
  refine ⟨hs, List.isChain_singleton indent, ?_⟩
  intro outer houter inner hinner
  rw [getLast?_levels] at houter
  cases houter
  cases hinner
  exact isDeeper_iff.1 hd

/-- Closing blocks takes the innermost levels away. -/
theorem closeTo_eq_some {base : Indent} {inner inner' : List Indent} {closed : Nat}
    (h : closeTo base indent inner = some (closed, inner')) :
    closed ≤ inner.length ∧ inner' = inner.drop closed ∧ inner'.headD base = indent := by
  induction inner generalizing closed with
  | nil =>
    simp only [closeTo] at h
    split at h
    · next hbase => cases h; exact ⟨le_rfl, rfl, hbase⟩
    · cases h
  | cons level inner ih =>
    simp only [closeTo] at h
    split at h
    · next hlevel => cases h; exact ⟨by omega, rfl, hlevel⟩
    · obtain ⟨⟨k, rest⟩, hk, hkr⟩ := Option.map_eq_some_iff.1 h
      cases hkr
      obtain ⟨hle, hdrop, htop⟩ := ih hk
      exact ⟨by simpa using hle, by simpa using hdrop, htop⟩

/-- The blocks inside the innermost one of a level are closed. -/
theorem closeTo_append {base : Indent} {inside outside : List Indent}
    (hinside : ∀ level ∈ inside, level ≠ indent) (hlevel : outside.headD base = indent) :
    closeTo base indent (inside ++ outside) = some (inside.length, outside) := by
  induction inside with
  | nil =>
    cases outside with
    | nil => simp [closeTo, show base = indent from hlevel]
    | cons level outside => simp [closeTo, show level = indent from hlevel]
  | cons level inside ih =>
    rw [List.forall_mem_cons] at hinside
    simp [closeTo, hinside.1, ih hinside.2]

theorem levels_closed_prefix (s : IndentStack) (k : Nat) :
    levels { s with inner := s.inner.drop k } <+: s.levels :=
  List.cons_prefix_cons.2 ⟨rfl, List.reverse_prefix.2 (List.drop_suffix k s.inner)⟩

theorem IsChained.closed (hs : s.IsChained) (k : Nat) :
    IsChained { s with inner := s.inner.drop k } :=
  List.IsChain.prefix hs (s.levels_closed_prefix k)

end IndentStack

namespace Reader

variable {r r' : Reader} {line : Line}

/-- How the stacks of a reader, its pending header and its current state stay in step. -/
structure Nested (r : Reader) : Prop where
  contexts : r.contexts = [.top] ∨ r.contexts = [.tapes, .top] ∨ r.contexts = [.rules, .top] ∨
    r.contexts = [.state, .rules, .top]
  depth : r.contexts.length = r.indents.depth + 1
  base : r.indents.base = []
  chained : r.indents.IsChained
  pending : ∀ block header, r.pending = some (block, header) →
    (block = .tapes ∨ block = .rules) ∧ r.contexts = [.top] ∨
      block = .state ∧ r.contexts = [.rules, .top]
  current : (r.contexts.head? = some .state ∨ ∃ header, r.pending = some (.state, header)) →
    r.current.isSome

/-- Before the first line there is no block. -/
theorem nested_start (file : String) : Nested { file := file } where
  contexts := .inl rfl
  depth := rfl
  base := rfl
  chained := List.isChain_singleton _
  pending := by simp
  current := by simp

/-- Opening and closing blocks keeps the stacks in step. -/
theorem Nested.enters (hr : r.Nested) (h : Enters r line r') : r'.Nested := by
  cases h with
  | @opens block header pending deeper =>
    have hblock := hr.pending block header pending
    constructor
    · rcases hblock with ⟨rfl | rfl, hc⟩ | ⟨rfl, hc⟩ <;> simp [hc]
    · simpa [IndentStack.depth] using hr.depth
    · exact hr.base
    · exact hr.chained.opened deeper
    · simp
    · rintro (hstate | ⟨_, hpending⟩)
      · -- a block of transitions is opened only below the header of the current state
        have : block = .state := by simpa using hstate
        subst this
        exact hr.current (.inr ⟨header, pending⟩)
      · cases hpending
  | @closes closed inner tapes rules deeper close =>
    obtain ⟨hle, rfl, -⟩ := IndentStack.closeTo_eq_some close
    have hdepth := hr.depth
    unfold IndentStack.depth at hdepth
    -- no more blocks are closed than are open, so the top of the text is never left
    have hcases : r.contexts.drop closed = r.contexts ∨ r.contexts.drop closed = [.rules, .top] ∨
        r.contexts.drop closed = [.top] := by
      have hlt : closed < r.contexts.length := by omega
      rcases hr.contexts with hc | hc | hc | hc <;> rw [hc] at hlt ⊢ <;>
        simp only [List.length_cons, List.length_nil] at hlt <;> interval_cases closed <;> simp
    constructor
    · rcases hcases with hc | hc | hc <;> rw [hc]
      · exact hr.contexts
      · simp
      · simp
    · simp only [List.length_drop, IndentStack.depth]
      omega
    · exact hr.base
    · exact hr.chained.closed closed
    · simp
    · rintro (hstate | ⟨_, hpending⟩)
      · rcases hcases with hc | hc | hc <;> rw [hc] at hstate
        · exact hr.current (.inl hstate)
        · cases hstate
        · cases hstate
      · cases hpending

/-- A directive leaves the blocks alone, but may leave one pending. -/
theorem Nested.declares (hr : r.Nested) (hc : r.contexts = [.top])
    {offset : Nat} {rest : List Char} {d : Directive} (h : Declares r line offset rest d r') :
    r'.Nested := by
  cases h with
  | name | tape | head | heads | blank =>
    exact ⟨hr.contexts, hr.depth, hr.base, hr.chained, hr.pending, hr.current⟩
  | tapes | rules =>
    refine ⟨hr.contexts, hr.depth, hr.base, hr.chained, ?_, ?_⟩
    · intro block header heq
      cases heq
      simp [hc]
    · simp [hc]

theorem Nested.note (hr : r.Nested) (d : Directive) : (r.note line d).Nested :=
  ⟨hr.contexts, hr.depth, hr.base, hr.chained, hr.pending, hr.current⟩

/-- The innermost block determines those around it. -/
theorem Nested.contexts_of_head? (hr : r.Nested) :
    (r.contexts.head? = some .top → r.contexts = [.top]) ∧
      (r.contexts.head? = some .rules → r.contexts = [.rules, .top]) := by
  rcases hr.contexts with hc | hc | hc | hc <;> simp [hc]

/-- A line adds something to the innermost block, or leaves a new one pending in it. -/
theorem Nested.handles (hr : r.Nested) (h : Handles r line r') : r'.Nested := by
  cases h with
  | directive context content colon word fresh declares =>
    exact (hr.note _).declares (hr.contexts_of_head?.1 context) declares
  | row context value => exact ⟨hr.contexts, hr.depth, hr.base, hr.chained, hr.pending, hr.current⟩
  | header context value fresh =>
    have hc := hr.contexts_of_head?.2 context
    rw [flush_eq]
    refine ⟨hr.contexts, hr.depth, hr.base, hr.chained, ?_, fun _ => rfl⟩
    intro block header heq
    cases heq
    exact .inr ⟨rfl, hc⟩
  | transition context value even current =>
    exact ⟨hr.contexts, hr.depth, hr.base, hr.chained, hr.pending, fun _ => rfl⟩

/-- One line keeps the stacks in step. -/
theorem Nested.feed (hr : r.Nested) (h : r.feed line = .ok r') : r'.Nested := by
  obtain ⟨r₁, henters, hhandles⟩ := feed_eq_ok_iff.1 h
  exact (hr.enters henters).handles hhandles

/-- **After any lines that have been fed without error, the stacks are in step.** -/
theorem Nested.feedAll (hr : r.Nested) {lines : List Line} (h : r.feedAll lines = .ok r') :
    r'.Nested :=
  feedAll_induction (fun _ _ _ _ hr h => hr.feed h) hr h

end Reader

/-! ### The errors of a line -/

/-- The errors that a text can cause: it is refused, or a head position in it denotes no number. -/
def ReadError.Allowed (text : List Char) : ReadError → Prop
  | .refused _ => True
  | .badNumeral ds => LineRule.IsIndex ds ∧ ds <:+: text ∧ Text.numeral? ds = none
  | .homeless => False

theorem ReadError.Allowed.mono {text text' : List Char} (h : text <:+: text') {e : ReadError}
    (he : e.Allowed text) : e.Allowed text' := by
  cases e with
  | refused _ => trivial
  | badNumeral ds => exact ⟨he.1, he.2.1.trans h, he.2.2⟩
  | homeless => exact he

namespace Reader

variable {r r' : Reader} {line : Line} {e : ReadError} {text : List Char}

theorem allowed_of_readValue {α : Type} {offset : Nat} {kind : LineKind} {p : Pattern α}
    {value : List Char} (h : r.readValue line offset kind p value = .error e) : e.Allowed text := by
  unfold readValue at h
  split at h
  · cases h
  · cases h; trivial

theorem allowed_of_readIndex {digits : List Char} (hd : LineRule.IsIndex digits)
    (hsub : digits <:+: text) (h : readIndex digits = .error e) : e.Allowed text := by
  unfold readIndex at h
  split at h
  · cases h
  · next hnone => cases h; exact ⟨hd, hsub, hnone⟩

theorem allowed_of_settle (h : r.settle = .error e) : e.Allowed text := by
  unfold settle at h
  split at h
  · cases h; trivial
  · cases h; trivial
  · cases h

theorem allowed_of_enter (h : r.enter line = .error e) : e.Allowed text := by
  unfold enter at h
  split at h
  · cases h
  · rcases bind_eq_error.1 h with h | ⟨r₁, -, h⟩
    · exact allowed_of_settle h
    · split at h
      · cases h; trivial
      · split at h
        · cases h; trivial
        · cases h

theorem allowed_of_openBlock {d : Directive} {block : Block} {offset : Nat} {rest : List Char}
    (h : r.openBlock line d block offset rest = .error e) : e.Allowed text := by
  unfold openBlock at h
  split at h
  · cases h
  · cases h; trivial

theorem allowed_of_declare {d : Directive} {offset : Nat} {rest : List Char}
    (h : r.declare line d offset rest = .error e) : e.Allowed rest := by
  cases d with
  | name =>
    simp only [declare] at h
    split at h
    · cases h; trivial
    · cases h
  | tape | blank =>
    rcases bind_eq_error.1 h with h | ⟨_, -, h⟩
    · exact allowed_of_readValue h
    · cases h
  | tapes | rules => exact allowed_of_openBlock h
  | head =>
    rcases bind_eq_error.1 h with h | ⟨digits, hdigits, h⟩
    · exact allowed_of_readValue h
    · rcases bind_eq_error.1 h with h | ⟨_, -, h⟩
      · have hd := Pattern.derives_of_parse (readValue_eq_ok_iff.1 hdigits)
        obtain ⟨hsub, hindex⟩ := LineRule.isIndex_of_headValue hd
        exact allowed_of_readIndex hindex hsub h
      · cases h
  | heads =>
    rcases bind_eq_error.1 h with h | ⟨numerals, hnumerals, h⟩
    · exact allowed_of_readValue h
    · rcases bind_eq_error.1 h with h | ⟨_, -, h⟩
      · obtain ⟨digits, hmem, h⟩ := exists_of_mapM_eq_error h
        have hd := Pattern.derives_of_parse (readValue_eq_ok_iff.1 hnumerals)
        obtain ⟨hsub, hindex⟩ := LineRule.isIndex_of_headsValue hd hmem
        exact allowed_of_readIndex hindex hsub h
      · cases h

theorem allowed_of_directiveLine (h : r.directiveLine line = .error e) :
    e.Allowed line.content := by
  unfold directiveLine at h
  dsimp only at h
  split at h
  · cases h; trivial
  · next c rest hdrop =>
    have hsub : rest <:+: line.content :=
      ((List.suffix_cons c rest).trans (hdrop ▸ List.dropWhile_suffix _)).isInfix
    split at h
    · cases h; trivial
    · split at h
      · cases h; trivial
      · split at h
        · cases h; trivial
        · exact (allowed_of_declare h).mono hsub

theorem allowed_of_rowLine (h : r.rowLine line = .error e) : e.Allowed text := by
  rcases bind_eq_error.1 h with h | ⟨_, -, h⟩
  · exact allowed_of_readValue h
  · cases h

theorem allowed_of_headerLine (h : r.headerLine line = .error e) : e.Allowed text := by
  unfold headerLine at h
  split at h
  · split at h <;> cases h <;> trivial
  · split at h
    · cases h; trivial
    · cases h

theorem allowed_of_transitionLine (hcurrent : r.current.isSome)
    (h : r.transitionLine line = .error e) : e.Allowed text := by
  unfold transitionLine at h
  dsimp only at h
  split at h
  · split at h <;> cases h <;> trivial
  · split at h
    · cases h; trivial
    · cases h
    · next hnone => simp [hnone] at hcurrent

/-- While the stacks are in step, a line finds its block and a transition finds its state. -/
theorem Nested.allowed_of_feed (hr : r.Nested) (h : r.feed line = .error e) :
    e.Allowed line.content := by
  rcases bind_eq_error.1 h with h | ⟨r₁, hr₁, h⟩
  · exact allowed_of_enter h
  · have hn := hr.enters (enter_eq_ok_iff.1 hr₁)
    split at h
    · exact allowed_of_directiveLine h
    · exact allowed_of_rowLine h
    · exact allowed_of_headerLine h
    · next hc => exact allowed_of_transitionLine (hn.current (.inl (by rw [hc]; rfl))) h
    · next hc => rcases hn.contexts with hc' | hc' | hc' | hc' <;> rw [hc] at hc' <;> cases hc'

theorem Nested.allowed_of_feedAll (hr : r.Nested) {lines : List Line}
    (h : r.feedAll lines = .error e) : ∃ line ∈ lines, e.Allowed line.content := by
  induction lines generalizing r with
  | nil => cases h
  | cons line lines ih =>
    rcases bind_eq_error.1 h with h | ⟨r₁, hr₁, h⟩
    · exact ⟨line, List.mem_cons_self, hr.allowed_of_feed h⟩
    · obtain ⟨l, hl, he⟩ := ih (hr.feed hr₁) h
      exact ⟨l, List.mem_cons_of_mem line hl, he⟩

/-! ### The end of a text -/

/-- The directive that declared the heads has been seen. -/
def HeadSeen (r : Reader) : Prop :=
  ∀ d ∈ r.head, (r.seenLine? (if d.multi then .heads else .head)).isSome

theorem HeadSeen.declares {offset : Nat} {rest : List Char} {d : Directive} (hr : r.HeadSeen)
    (h : Declares (r.note line d) line offset rest d r') : r'.HeadSeen := by
  have hnote : (r.note line d).HeadSeen := fun decl hdecl =>
    isSome_seenLine?_note (hr decl hdecl) d
  have hself : (r.note line d).seenLine? d = some line := by rw [seenLine?_note, if_pos rfl]
  cases h with
  | name | tape | tapes | blank | rules => exact hnote
  | head | heads =>
    intro decl hdecl
    cases hdecl
    exact Option.isSome_of_eq_some hself

theorem HeadSeen.feed (hr : r.HeadSeen) (h : r.feed line = .ok r') : r'.HeadSeen := by
  obtain ⟨r₁, henters, hhandles⟩ := feed_eq_ok_iff.1 h
  have hr₁ : r₁.HeadSeen := by cases henters <;> exact hr
  cases hhandles with
  | directive context content colon word fresh declares => exact hr₁.declares declares
  | header context value fresh => rw [flush_eq]; exact hr₁
  | row context value => exact hr₁
  | transition context value even current => exact hr₁

theorem HeadSeen.allowed_of_assemble (hr : r.HeadSeen) (h : r.assemble = .error e) :
    e.Allowed text := by
  unfold assemble at h
  split at h
  · cases h; trivial
  · cases h; trivial
  · split at h
    · cases h
    · next decl hdecl =>
      split at h
      · cases h
      · split at h
        · cases h; trivial
        · next hnone =>
          have := hr decl hdecl
          rw [hnone] at this
          cases this

theorem HeadSeen.allowed_of_finish (hr : r.HeadSeen) (h : r.finish = .error e) : e.Allowed text := by
  rcases bind_eq_error.1 h with h | ⟨r₁, hr₁, h⟩
  · exact allowed_of_settle h
  · obtain ⟨-, -, rfl⟩ := settle_eq_ok_iff.1 hr₁
    rw [flush_eq] at h
    exact HeadSeen.allowed_of_assemble (r := { r with
      pending := none, states := readStates { r with pending := none }, current := none }) hr h

end Reader

/-- A text that is read without a tree is refused, or one of its lines holds a head position that
denotes no number. -/
theorem parse_eq_error {text : List Char} {file : String} {e : ReadError}
    (h : parse text file = .error e) :
    (∃ s, e = .refused s) ∨ ∃ line ∈ scanLines text, e.Allowed line.content := by
  have hrefused : ∀ {e : ReadError}, e.Allowed [] → ∃ s, e = .refused s := by
    intro e he
    cases e with
    | refused s => exact ⟨s, rfl⟩
    | badNumeral ds => exact absurd (List.infix_nil.1 he.2.1) he.1.ne_nil
    | homeless => exact he.elim
  unfold parse at h
  split at h
  · cases h; exact .inl ⟨_, rfl⟩
  · rcases bind_eq_error.1 h with h | ⟨r, hr, h⟩
    · exact .inr ((Reader.nested_start file).allowed_of_feedAll h)
    · have hseen : r.HeadSeen := by
        refine Reader.feedAll_induction (fun _ _ _ _ hr h => hr.feed h) ?_ hr
        intro d hd
        cases hd
      exact .inl (hrefused (hseen.allowed_of_finish h))

/-- A run of decimal digits denotes no number if it is too long or if one of the digits has no value. -/
theorem numeral?_eq_none_iff {ds : List Char} :
    Text.numeral? ds = none ↔
      Text.maxDigits < ds.length ∨ ∃ c ∈ ds, Text.digitValue? c = none := by
  unfold Text.numeral?
  split
  · next h =>
    have hvalue : ∀ c ∈ ds, Text.digitValue? c ≠ none := by
      simpa [Text.isDigit, Option.isSome_iff_ne_none] using h.2
    simpa [h.1] using hvalue
  · next h =>
    have hor := not_and_or.1 h
    simpa [Text.isDigit] using hor

/-- **The blocks of a text nest, and reading it comes to an end that is planned for.** After any lines
that have been fed without error the stacks are in step and a pending block can be opened by every
deeper line. Reading ends with a tree, with a refusal, or with a head position on one of the lines that
is longer than the limit or has a digit without a value. -/
theorem blocks_nest_and_reading_ends (text : List Char) (file : String) :
    (∀ lines r, lines <+: scanLines text → Reader.feedAll { file := file } lines = .ok r →
      r.Nested ∧ r.indents.levels.head? = some [] ∧
        ∀ indent, r.pending.isSome → r.indents.isDeeper indent = true →
          ∃ indents, r.indents.push indent = .ok indents) ∧
    ((∃ tree, parse text file = .ok tree) ∨ (∃ e, parse text file = .error (.refused e)) ∨
      ∃ ds, parse text file = .error (.badNumeral ds) ∧ LineRule.IsIndex ds ∧
        (∃ line ∈ scanLines text, ds <:+: line.content) ∧
        (Text.maxDigits < ds.length ∨ ∃ c ∈ ds, Text.digitValue? c = none)) := by
  refine ⟨?_, ?_⟩
  · intro lines r _ h
    have hr := (Reader.nested_start file).feedAll h
    refine ⟨hr, by simp [IndentStack.levels, hr.base], ?_⟩
    intro indent _ hdeeper
    exact ⟨_, if_pos hdeeper⟩
  · cases h : parse text file with
    | ok tree => exact .inl ⟨tree, rfl⟩
    | error e =>
      rcases parse_eq_error h with ⟨s, rfl⟩ | ⟨line, hline, he⟩
      · exact .inr (.inl ⟨s, rfl⟩)
      · cases e with
        | refused s => exact .inr (.inl ⟨s, rfl⟩)
        | badNumeral ds =>
          exact .inr (.inr ⟨ds, rfl, he.1, ⟨line, hline, he.2.1⟩, numeral?_eq_none_iff.1 he.2.2⟩)
        | homeless => exact he.elim

/-- A head position of a single digit without a value: reading ends with neither a tree nor a
refusal. -/
theorem parse_digit_without_value :
    parse "tape: a\nhead: 𑽐\nrules:\n  s:\n".toList "<string>" = .error (.badNumeral ['𑽐']) := by
  rfl

end TapeLang
