import Mathlib
import TapeLang.Proofs.Analysis
import TapeLang.Proofs.Blocks

/-!
# What reading guarantees to the later phases

`Reader.Holds` is an invariant of everything that a reader has collected: the symbols are single
characters, the moves have a meaning, the heads are not negative, and a block that has been declared has
a row or a state, unless its first line is still awaited. At the end nothing is awaited any more, and the
tree is one that `build` can work with.

* `Reader.Holds`, `Reader.Holds.feed`: the invariant and one line;
* `isRead_of_parse`: every tree that comes from a text;
* `front_end_guarantee`: what building such a tree gives.
-/

namespace TapeLang

namespace Reader

variable {r r' : Reader} {line : Line}

/-- What is true of all that has been read, where `awaits` says of which blocks the first line is still
to come. -/
structure Holds (r : Reader) (awaits : Block → Prop) : Prop where
  tape_ne : ∀ d ∈ r.tape, d.rows ≠ []
  tape : ∀ d ∈ r.tape, ∀ row ∈ d.rows, ∀ s ∈ row, s.spelling.IsSingle
  rows_ne : (r.seenLine? .tapes).isSome → r.rows ≠ [] ∨ awaits .tapes
  rows : ∀ row ∈ r.rows, ∀ s ∈ row, s.spelling.IsSingle
  heads : ∀ d ∈ r.head, ∀ x ∈ d.positions, 0 ≤ x
  blank : ∀ d ∈ r.blank, d.symbol.length = 1
  states_ne : (r.seenLine? .rules).isSome → r.readStates ≠ [] ∨ awaits .rules
  transitions : ∀ s ∈ r.readStates, ∀ t ∈ s.transitions, t.IsSpelled

/-- A block is awaited between two lines if its header is pending. -/
def Awaits (r : Reader) (block : Block) : Prop := ∃ header, r.pending = some (block, header)

/-- A block is awaited on its first line if it is the innermost one. -/
def Inside (r : Reader) (block : Block) : Prop := r.contexts.head? = some block

theorem holds_start (file : String) : Holds { file := file } (Awaits { file := file }) where
  tape_ne := by simp
  tape := by simp
  rows_ne := by simp [seenLine?]
  rows := by simp
  heads := by simp
  blank := by simp
  states_ne := by simp [seenLine?]
  transitions := by simp [readStates]

/-- A line that opens the awaited block stands in it. -/
theorem Holds.enters (hr : r.Holds r.Awaits) (h : Enters r line r') : r'.Holds r'.Inside := by
  cases h with
  | @opens block header pending deeper =>
    have hinside : ∀ b, r.Awaits b → (block :: r.contexts).head? = some b := by
      rintro b ⟨header', heq⟩
      rw [pending] at heq
      cases heq
      rfl
    refine { hr with rows_ne := fun h => ?_, states_ne := fun h => ?_ }
    · exact (hr.rows_ne h).imp_right (hinside .tapes)
    · exact (hr.states_ne h).imp_right (hinside .rules)
  | @closes closed inner tapes rules deeper close =>
    refine { hr with rows_ne := fun h => ?_, states_ne := fun h => ?_ }
    · exact .inl ((hr.rows_ne h).resolve_right fun ⟨header, heq⟩ => tapes header heq)
    · exact .inl ((hr.states_ne h).resolve_right fun ⟨header, heq⟩ => rules header heq)

theorem Holds.weaken (hr : r.Holds fun _ => False) (awaits : Block → Prop) : r.Holds awaits :=
  { hr with
    rows_ne := fun h => (hr.rows_ne h).imp_right False.elim
    states_ne := fun h => (hr.states_ne h).imp_right False.elim }

/-- Outside every block nothing is awaited but what a directive has just declared. -/
theorem Holds.declares {offset : Nat} {rest : List Char} {d : Directive} (hr : r.Holds fun _ => False)
    (h : Declares (r.note line d) line offset rest d r') : r'.Holds r'.Awaits := by
  have hrows : d ≠ .tapes → ((r.note line d).seenLine? .tapes).isSome → r.rows ≠ [] ∨ False := by
    intro hne h
    rw [seenLine?_note, if_neg hne] at h
    exact hr.rows_ne h
  have hstates : d ≠ .rules → ((r.note line d).seenLine? .rules).isSome → r.readStates ≠ [] ∨ False := by
    intro hne h
    rw [seenLine?_note, if_neg hne] at h
    exact hr.states_ne h
  -- a directive that opens no block leaves nothing to wait for
  have hnote : d ≠ .tapes → d ≠ .rules → (r.note line d).Holds fun _ => False := fun htapes hrules =>
    { hr with rows_ne := hrows htapes, states_ne := hstates hrules }
  cases h with
  | name ne =>
    apply Holds.weaken
    exact { hnote (by decide) (by decide) with }
  | @tape row value =>
    have hsingle := LineRule.single_of_tapeValue (Pattern.derives_of_parse value)
    apply Holds.weaken
    refine { hnote (by decide) (by decide) with tape_ne := ?_, tape := ?_ }
    · rintro decl ⟨⟩
      exact List.cons_ne_nil _ _
    · rintro decl ⟨⟩
      exact List.forall_mem_singleton.2 hsingle
  | tapes bare =>
    exact { hr with
      rows_ne := fun _ => .inr ⟨line, rfl⟩
      states_ne := fun h => (hstates (by decide) h).imp_right False.elim }
  | @head digits x value number =>
    apply Holds.weaken
    refine { hnote (by decide) (by decide) with heads := ?_ }
    rintro decl ⟨⟩
    exact List.forall_mem_singleton.2 (Int.natCast_nonneg x)
  | @heads numerals xs value numbers =>
    apply Holds.weaken
    refine { hnote (by decide) (by decide) with heads := ?_ }
    rintro decl ⟨⟩
    exact nonneg_of_readIndex numbers
  | @blank s value =>
    have hsingle := LineRule.single_of_blankValue (Pattern.derives_of_parse value)
    apply Holds.weaken
    refine { hnote (by decide) (by decide) with blank := ?_ }
    rintro decl ⟨⟩
    exact hsingle
  | rules bare =>
    exact { hr with
      rows_ne := fun h => (hrows (by decide) h).imp_right False.elim
      states_ne := fun _ => .inr ⟨line, rfl⟩ }

theorem Holds.flush {awaits : Block → Prop} (hr : r.Holds awaits) : r.flush.Holds awaits := by
  rw [flush_eq]
  exact { hr with }

/-- A line outside every block, or a line of the innermost block, which is then no longer awaited. -/
theorem Holds.handles (hr : r.Holds r.Inside) (h : Handles r line r') : r'.Holds r'.Awaits := by
  have hother : ∀ {b b'}, r.contexts.head? = some b → b ≠ b' → ¬r.Inside b' := by
    intro b b' hb hne hb'
    rw [Inside, hb] at hb'
    exact hne (Option.some.inj hb')
  cases h with
  | directive context content colon word fresh declares =>
    have htop : r.Holds fun _ => False :=
      { hr with
        rows_ne := fun h => (hr.rows_ne h).imp_right (hother context (by decide))
        states_ne := fun h => (hr.states_ne h).imp_right (hother context (by decide)) }
    exact htop.declares declares
  | @row row context value =>
    have hsingle := LineRule.single_of_tapeRow (Pattern.derives_of_parse value)
    exact { hr with
      rows_ne := fun _ => .inl (List.cons_ne_nil row r.rows)
      rows := List.forall_mem_cons.2 ⟨hsingle, hr.rows⟩
      states_ne := fun h => .inl ((hr.states_ne h).resolve_right (hother context (by decide))) }
  | @header name context value fresh =>
    have hflush := hr.flush
    refine { hflush with rows_ne := fun h => ?_, states_ne := fun _ => ?_, transitions := ?_ }
    · exact .inl ((hflush.rows_ne h).resolve_right (hother context (by decide)))
    · rw [readStates_header]
      exact .inl (List.cons_ne_nil _ _)
    · rw [readStates_header]
      exact List.forall_mem_cons.2 ⟨by simp, hr.transitions⟩
  | @transition t s context value even current =>
    obtain ⟨hnew, hold⟩ := readStates_transition current t
    have hspelled := LineRule.isSpelled_of_transition (Pattern.derives_of_parse value)
    have htrans := hr.transitions
    rw [hold, List.forall_mem_cons] at htrans
    refine { hr with rows_ne := fun h => ?_, states_ne := fun _ => ?_, transitions := ?_ }
    · exact .inl ((hr.rows_ne h).resolve_right (hother context (by decide)))
    · rw [hnew]
      exact .inl (List.cons_ne_nil _ _)
    · rw [hnew, List.forall_mem_cons]
      refine ⟨?_, htrans.2⟩
      intro u hu
      rcases List.mem_append.1 hu with hu | hu
      · exact htrans.1 u hu
      · rw [List.mem_singleton.1 hu]
        exact hspelled

theorem Holds.feed (hr : r.Holds r.Awaits) (h : r.feed line = .ok r') : r'.Holds r'.Awaits := by
  obtain ⟨r₁, henters, hhandles⟩ := feed_eq_ok_iff.1 h
  exact (hr.enters henters).handles hhandles

/-! ### The tree -/

/-- The declared tapes are at least one, and their symbols are single characters. -/
theorem Holds.tapeDecl (hr : r.Holds fun _ => False) {tape : Ast.TapeDecl}
    (h : r.tapeDecl? = some tape) :
    tape.rows ≠ [] ∧ ∀ row ∈ tape.rows, ∀ s ∈ row, s.spelling.IsSingle := by
  unfold tapeDecl? at h
  split at h
  · next header hseen =>
    cases h
    have hne := (hr.rows_ne (Option.isSome_of_eq_some hseen)).resolve_right id
    refine ⟨by simpa using hne, ?_⟩
    intro row hrow
    exact hr.rows row (List.mem_reverse.1 hrow)
  · exact ⟨hr.tape_ne tape h, hr.tape tape h⟩

theorem Holds.finish (hr : r.Holds r.Awaits) {tree : Ast.Program} (h : r.finish = .ok tree) :
    tree.IsRead := by
  obtain ⟨htapes, hrules, tape, htape, hseen, hcount, rfl⟩ := finish_eq_ok_iff.1 h
  -- no block is awaited any more, so both have been given their lines
  have hend : r.Holds fun _ => False :=
    { hr with
      rows_ne := fun h => (hr.rows_ne h).imp_right fun ⟨header, heq⟩ => htapes header heq
      states_ne := fun h => (hr.states_ne h).imp_right fun ⟨header, heq⟩ => hrules header heq }
  have hdecl := hend.tapeDecl htape
  have hstates := (hend.states_ne hseen).resolve_right id
  exact
    { rows_ne := hdecl.1
      rows := hdecl.2
      head_count := hcount
      heads := hr.heads
      blank := hr.blank
      states_ne := fun h => hstates (List.reverse_eq_nil_iff.1 h)
      transitions := fun s hs => hr.transitions s (List.mem_reverse.1 hs) }

end Reader

/-- **Every tree that comes from a text has what building needs.** -/
theorem isRead_of_parse {text : List Char} {file : String} {tree : Ast.Program}
    (h : parse text file = .ok tree) : tree.IsRead := by
  obtain ⟨-, r, hr, hfinish⟩ := parse_eq_ok_iff.1 h
  have hholds : r.Holds r.Awaits := by
    refine Reader.feedAll_induction (P := fun r => r.Holds r.Awaits) ?_ (Reader.holds_start file) hr
    exact fun _ _ _ _ hr h => hr.feed h
  exact hholds.finish hfinish

/-! ### What building gives -/

/-- The code of an error in a transition, and its place. -/
theorem BuildError.IsAt.place {arity : Nat} {state : String} {t : Ast.Transition} {e : BuildError}
    (h : e.IsAt arity state t) :
    e.place? = some (.arityMismatch, .ofLocation t.loc) ∨
      e.place? = some (.duplicateTransition, .ofLocation t.loc) := by
  cases h with
  | length => exact .inl rfl
  | repeated => exact .inr rfl

/-- **A text that can be read gives a well-formed program,** which starts in the first declared state and
of which the checks of the start state and of the arity have nothing to say; or building refuses one of
its transitions, for its length or for a repeated read vector, and names the place of that transition. -/
theorem front_end_guarantee (text : List Char) (file : String) (tree : Ast.Program)
    (h : parse text file = .ok tree) :
    (∃ p, build tree = .ok p ∧ p.WellFormed ∧
        tree.states.head?.map Ast.State.name = some p.start ∧
        ∀ path suppressions minSeverity, ∀ d ∈ analyze p path suppressions minSeverity,
          d.id ≠ "missing-start-state" ∧ d.id ≠ "arity-mismatch") ∨
      ∃ e, build tree = .error e ∧ ∃ s ∈ tree.states, ∃ t ∈ s.transitions,
        e.IsAt tree.tape.arity s.name t ∧
        (e.place? = some (.arityMismatch, .ofLocation t.loc) ∨
          e.place? = some (.duplicateTransition, .ofLocation t.loc)) := by
  rcases build_of_isRead (isRead_of_parse h) with ⟨p, hp, hwell, hstart⟩ | ⟨e, he, s, hs, t, ht, hat⟩
  · exact .inl ⟨p, hp, hwell, hstart, fun _ _ _ _ hd => hwell.id_ne_of_mem_analyze hd⟩
  · exact .inr ⟨e, he, s, hs, t, ht, hat, hat.place⟩

/-- A text with two tapes, an empty one among them, and with a state that has no transition. -/
def twoTapes : List Char :=
  "tapes:\n  [a, '#']\n  []\nrules:\n  q:\n    [a, _] -> ['#', b], [R, S], r\n  r:\n".toList

/-- A text whose second transition is shorter than the list of tapes. -/
def shortTransition : List Char :=
  "tapes:\n  [a, '#']\n  []\nrules:\n  q:\n    [a, _], [R, S], q\n    a, R, q\n".toList

/-- Both cases occur. -/
theorem front_end_guarantee_two_tapes :
    (∃ tree p, parse twoTapes "m" = .ok tree ∧ build tree = .ok p ∧ p.WellFormed) ∧
      ∃ tree e, parse shortTransition "m" = .ok tree ∧ build tree = .error e ∧
        ∃ s ∈ tree.states, ∃ t ∈ s.transitions, e.IsAt tree.tape.arity s.name t := by
  have hfirst : ((parse twoTapes "m").toOption.bind fun tree => (build tree).toOption).isSome := by rfl
  have hsecond : ((parse shortTransition "m").toOption.bind fun tree => (build tree).toOption).isNone := by
    rfl
  obtain ⟨tree₁, h₁⟩ : ∃ tree, parse twoTapes "m" = .ok tree := ⟨_, rfl⟩
  obtain ⟨tree₂, h₂⟩ : ∃ tree, parse shortTransition "m" = .ok tree := ⟨_, rfl⟩
  rw [h₁] at hfirst
  rw [h₂] at hsecond
  refine ⟨?_, ?_⟩
  · rcases front_end_guarantee twoTapes "m" tree₁ h₁ with ⟨p, hp, hwell, -⟩ | ⟨e, he, -⟩
    · exact ⟨tree₁, p, h₁, hp, hwell⟩
    · simp [Except.toOption, he] at hfirst
  · rcases front_end_guarantee shortTransition "m" tree₂ h₂ with ⟨p, hp, -⟩ | ⟨e, he, s, hs, t, ht, hat, -⟩
    · simp [Except.toOption, hp] at hsecond
    · exact ⟨tree₂, e, h₂, he, s, hs, t, ht, hat⟩

end TapeLang
