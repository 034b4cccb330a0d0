import Mathlib
import TapeLang.Proofs.LineRule
import TapeLang.Source.Reader

/-!
# What feeding a line does

A line that is fed without error first opens or closes blocks and then adds one thing to what has been
read. Two relations say exactly how, and later files argue about them and not about `Reader.feed`.

* `Reader.Enters`: the blocks that a line opens or closes;
* `Reader.Declares`, `Reader.Handles`: what a directive, and any line, adds;
* `Reader.feed_eq_ok_iff`: feeding succeeds exactly if a line enters and is handled.
-/

namespace TapeLang

section Except

variable {ε α β : Type}

theorem bind_eq_ok {x : Except ε α} {f : α → Except ε β} {b : β} :
    x >>= f = .ok b ↔ ∃ a, x = .ok a ∧ f a = .ok b := by
  cases x with
  | error e => simp [bind, Except.bind]
  | ok a => simp [bind, Except.bind]

theorem bind_eq_error {x : Except ε α} {f : α → Except ε β} {e : ε} :
    x >>= f = .error e ↔ x = .error e ∨ ∃ a, x = .ok a ∧ f a = .error e := by
  cases x with
  | error e => simp [bind, Except.bind]
  | ok a => simp [bind, Except.bind]

theorem toOption_eq_some_iff {x : Except ε α} {a : α} : x.toOption = some a ↔ x = .ok a := by
  cases x with
  | error e => simp [Except.toOption]
  | ok b => simp [Except.toOption]

/-- A list is mapped without error exactly if each of its items is. -/
theorem mapM_eq_ok {f : α → Except ε β} {xs : List α} {ys : List β} :
    xs.mapM f = .ok ys ↔ List.Forall₂ (fun x y => f x = .ok y) xs ys := by
  induction xs generalizing ys with
  | nil => simp [pure, Except.pure, eq_comm]
  | cons x xs ih =>
    rw [List.mapM_cons, bind_eq_ok]
    constructor
    · rintro ⟨y, hy, h⟩
      obtain ⟨zs, hzs, h⟩ := bind_eq_ok.1 h
      cases h
      exact .cons hy (ih.1 hzs)
    · rintro (_ | ⟨hy, hys⟩)
      exact ⟨_, hy, bind_eq_ok.2 ⟨_, ih.2 hys, rfl⟩⟩

/-- What is related to an item of the second list is in the first. -/
theorem exists_of_forall₂_of_mem {R : α → β → Prop} {as : List α} {bs : List β}
    (h : List.Forall₂ R as bs) {b : β} (hb : b ∈ bs) : ∃ a ∈ as, R a b := by
  induction h with
  | nil => cases hb
  | cons hab _ ih =>
    rcases List.mem_cons.1 hb with rfl | hb
    · exact ⟨_, List.mem_cons_self, hab⟩
    · obtain ⟨a, ha, hR⟩ := ih hb
      exact ⟨a, List.mem_cons_of_mem _ ha, hR⟩

/-- If mapping a list fails, one of its items does. -/
theorem exists_of_mapM_eq_error {f : α → Except ε β} {xs : List α} {e : ε}
    (h : xs.mapM f = .error e) : ∃ x ∈ xs, f x = .error e := by
  induction xs with
  | nil => cases h
  | cons x xs ih =>
    rw [List.mapM_cons] at h
    rcases bind_eq_error.1 h with h | ⟨y, -, h⟩
    · exact ⟨x, List.mem_cons_self, h⟩
    · rcases bind_eq_error.1 h with h | ⟨ys, -, h⟩
      · obtain ⟨z, hz, hfz⟩ := ih h
        exact ⟨z, List.mem_cons_of_mem x hz, hfz⟩
      · cases h

end Except

namespace Reader

variable {r r' : Reader} {line : Line}

/-! ### Opening and closing blocks -/

/-- The reader with its blocks as `line` finds them. -/
inductive Enters (r : Reader) (line : Line) : Reader → Prop
  /-- The line is the first of the pending block. -/
  | opens {block : Block} {header : Line} (pending : r.pending = some (block, header))
      (deeper : r.indents.isDeeper line.indent = true) :
      Enters r line
        { r with
          indents := { r.indents with inner := line.indent :: r.indents.inner }
          contexts := block :: r.contexts
          pending := none }
  /-- The line belongs to an open block, and closes those inside it. -/
  | closes {closed : Nat} {inner : List Indent}
      (tapes : ∀ header, r.pending ≠ some (.tapes, header))
      (rules : ∀ header, r.pending ≠ some (.rules, header))
      (deeper : r.indents.isDeeper line.indent = false)
      (close : IndentStack.closeTo r.indents.base line.indent r.indents.inner = some (closed, inner)) :
      Enters r line
        { r with
          indents := { r.indents with inner := inner }
          contexts := r.contexts.drop closed
          pending := none }

theorem settle_eq_ok_iff :
    r.settle = .ok r' ↔
      (∀ header, r.pending ≠ some (.tapes, header)) ∧
        (∀ header, r.pending ≠ some (.rules, header)) ∧ r' = { r with pending := none } := by
  unfold settle
  split
  · next header h => simp [h, refuse, refuseAt]
  · next header h => simp [h, refuse, refuseAt]
  · next htapes hrules =>
    have hok : (Except.ok { r with pending := none } : Except ReadError Reader) = .ok r' ↔
        r' = { r with pending := none } := by
      rw [Except.ok.injEq, eq_comm]
    rw [hok]
    exact ⟨fun h => ⟨htapes, hrules, h⟩, fun h => h.2.2⟩

theorem leave_eq_ok_iff :
    r.leave line = .ok r' ↔
      ∃ closed inner, (∀ header, r.pending ≠ some (.tapes, header)) ∧
        (∀ header, r.pending ≠ some (.rules, header)) ∧
        r.indents.isDeeper line.indent = false ∧
        IndentStack.closeTo r.indents.base line.indent r.indents.inner = some (closed, inner) ∧
        r' = { r with
          indents := { r.indents with inner := inner }
          contexts := r.contexts.drop closed
          pending := none } := by
  unfold leave
  rw [bind_eq_ok]
  constructor
  · rintro ⟨r₁, h₁, h⟩
    obtain ⟨htapes, hrules, rfl⟩ := settle_eq_ok_iff.1 h₁
    split at h
    · cases h
    · next hdeeper =>
      unfold IndentStack.dedentTo at h
      cases hclose : IndentStack.closeTo r.indents.base line.indent r.indents.inner with
      | none => simp [hclose, refuseAt] at h
      | some p =>
        obtain ⟨closed, inner⟩ := p
        simp only [hclose] at h
        cases h
        exact ⟨closed, inner, htapes, hrules, by simpa using hdeeper, rfl, rfl⟩
  · rintro ⟨closed, inner, htapes, hrules, hdeeper, hclose, rfl⟩
    refine ⟨_, settle_eq_ok_iff.2 ⟨htapes, hrules, rfl⟩, ?_⟩
    simp [hdeeper, IndentStack.dedentTo, hclose]

theorem enter_eq_ok_iff : r.enter line = .ok r' ↔ Enters r line r' := by
  unfold enter IndentStack.push
  constructor
  · intro h
    split at h
    · next block header indents hp hpush =>
      split at hpush
      · next hd => cases hpush; cases h; exact .opens hp hd
      · cases hpush
    · obtain ⟨closed, inner, htapes, hrules, hdeeper, hclose, rfl⟩ := leave_eq_ok_iff.1 h
      exact .closes htapes hrules hdeeper hclose
  · intro h
    cases h with
    | opens pending deeper => simp [pending, deeper]
    | closes tapes rules deeper close =>
      rw [if_neg (by simp [deeper])]
      cases hp : r.pending <;> exact leave_eq_ok_iff.2 ⟨_, _, tapes, rules, deeper, close, rfl⟩

/-! ### Directives -/

/-- The reader after the directive `d`, whose value `rest` begins after `offset` characters. -/
inductive Declares (r : Reader) (line : Line) (offset : Nat) (rest : List Char) :
    Directive → Reader → Prop
  | name (ne : Text.trim rest ≠ []) :
      Declares r line offset rest .name
        { r with name := some ⟨String.ofList (Text.trim rest), r.locate line⟩ }
  | tape {row : List Ast.Symbol}
      (value : (LineRule.tapeValue (r.here line offset)).parse rest = .ok row) :
      Declares r line offset rest .tape { r with tape := some ⟨[row], false, r.locate line⟩ }
  | tapes (bare : Text.trim rest = []) :
      Declares r line offset rest .tapes { r with pending := some (.tapes, line) }
  | head {digits : List Char} {x : Nat} (value : LineRule.headValue.parse rest = .ok digits)
      (number : Text.numeral? digits = some x) :
      Declares r line offset rest .head { r with head := some ⟨[x], false, r.locate line⟩ }
  | heads {numerals : List (List Char)} {xs : List Int}
      (value : LineRule.headsValue.parse rest = .ok numerals)
      (numbers : List.Forall₂ (fun ds x => readIndex ds = .ok x) numerals xs) :
      Declares r line offset rest .heads { r with head := some ⟨xs, true, r.locate line⟩ }
  | blank {s : Ast.Symbol}
      (value : (LineRule.blankValue (r.here line offset)).parse rest = .ok s) :
      Declares r line offset rest .blank
        { r with blank := some ⟨s.spelling.value, r.locate line⟩ }
  | rules (bare : Text.trim rest = []) :
      Declares r line offset rest .rules { r with pending := some (.rules, line) }

theorem readIndex_eq_ok_iff {digits : List Char} {x : Int} :
    readIndex digits = .ok x ↔ ∃ n : Nat, Text.numeral? digits = some n ∧ x = n := by
  unfold readIndex
  cases Text.numeral? digits with
  | none => simp
  | some n => simp [eq_comm]

/-- The numbers of head positions are not negative. -/
theorem nonneg_of_readIndex {numerals : List (List Char)} {xs : List Int}
    (h : List.Forall₂ (fun ds x => readIndex ds = .ok x) numerals xs) : ∀ x ∈ xs, 0 ≤ x := by
  induction h with
  | nil => simp
  | cons head _ ih =>
    obtain ⟨n, -, rfl⟩ := readIndex_eq_ok_iff.1 head
    exact List.forall_mem_cons.2 ⟨Int.natCast_nonneg n, ih⟩

theorem readValue_eq_ok_iff {α : Type} {offset : Nat} {kind : LineKind} {p : Pattern α}
    {text : List Char} {v : α} :
    r.readValue line offset kind p text = .ok v ↔ p.parse text = .ok v := by
  unfold readValue
  cases p.parse text with
  | error m => simp [malformed, refuseAt]
  | ok w => simp

theorem openBlock_eq_ok_iff {d : Directive} {block : Block} {offset : Nat} {rest : List Char} :
    r.openBlock line d block offset rest = .ok r' ↔
      Text.trim rest = [] ∧ r' = { r with pending := some (block, line) } := by
  unfold openBlock
  split
  · next h => simp [List.isEmpty_iff.1 h, eq_comm]
  · next h =>
    have hne : Text.trim rest ≠ [] := fun h' => h (List.isEmpty_iff.2 h')
    simp [refuseAt, hne]

theorem declare_eq_ok_iff {d : Directive} {offset : Nat} {rest : List Char} :
    r.declare line d offset rest = .ok r' ↔ Declares r line offset rest d r' := by
  constructor
  · intro h
    cases d with
    | name =>
      simp only [declare] at h
      split at h
      · cases h
      · next hne => cases h; exact .name fun h' => hne (List.isEmpty_iff.2 h')
    | tape =>
      obtain ⟨row, hrow, h⟩ := bind_eq_ok.1 h
      cases h
      exact .tape (readValue_eq_ok_iff.1 hrow)
    | tapes =>
      obtain ⟨hbare, rfl⟩ := openBlock_eq_ok_iff.1 h
      exact .tapes hbare
    | head =>
      obtain ⟨digits, hdigits, h⟩ := bind_eq_ok.1 h
      obtain ⟨x, hx, h⟩ := bind_eq_ok.1 h
      obtain ⟨n, hn, rfl⟩ := readIndex_eq_ok_iff.1 hx
      cases h
      exact .head (readValue_eq_ok_iff.1 hdigits) hn
    | heads =>
      obtain ⟨numerals, hnumerals, h⟩ := bind_eq_ok.1 h
      obtain ⟨xs, hxs, h⟩ := bind_eq_ok.1 h
      cases h
      exact .heads (readValue_eq_ok_iff.1 hnumerals) (mapM_eq_ok.1 hxs)
    | blank =>
      obtain ⟨s, hs, h⟩ := bind_eq_ok.1 h
      cases h
      exact .blank (readValue_eq_ok_iff.1 hs)
    | rules =>
      obtain ⟨hbare, rfl⟩ := openBlock_eq_ok_iff.1 h
      exact .rules hbare
  · intro h
    cases h with
    | name ne =>
      simp only [declare]
      rw [if_neg fun h' => ne (List.isEmpty_iff.1 h')]
      rfl
    | tape value => exact bind_eq_ok.2 ⟨_, readValue_eq_ok_iff.2 value, rfl⟩
    | tapes bare => exact openBlock_eq_ok_iff.2 ⟨bare, rfl⟩
    | head value number =>
      refine bind_eq_ok.2 ⟨_, readValue_eq_ok_iff.2 value, ?_⟩
      exact bind_eq_ok.2 ⟨_, readIndex_eq_ok_iff.2 ⟨_, number, rfl⟩, rfl⟩
    | heads value numbers =>
      refine bind_eq_ok.2 ⟨_, readValue_eq_ok_iff.2 value, ?_⟩
      exact bind_eq_ok.2 ⟨_, mapM_eq_ok.2 numbers, rfl⟩
    | blank value => exact bind_eq_ok.2 ⟨_, readValue_eq_ok_iff.2 value, rfl⟩
    | rules bare => exact openBlock_eq_ok_iff.2 ⟨bare, rfl⟩

/-- Neither the directive nor the other spelling of it has been seen. -/
def IsFresh (r : Reader) (d : Directive) : Prop :=
  r.seenLine? d = none ∧
    ∀ v ∈ d.variants, r.seenLine? v.1 = none ∧ r.seenLine? v.2 = none

/-- The reader with one more directive. -/
def note (r : Reader) (line : Line) (d : Directive) : Reader := { r with seen := (d, line) :: r.seen }

theorem seenLine?_note (r : Reader) (line : Line) (d d' : Directive) :
    (r.note line d).seenLine? d' = if d = d' then some line else r.seenLine? d' := by
  unfold seenLine? note
  by_cases h : d = d'
  · simp [h]
  · simp [h]

theorem isSome_seenLine?_note {d' : Directive} (h : (r.seenLine? d').isSome) (d : Directive) :
    ((r.note line d).seenLine? d').isSome := by
  rw [seenLine?_note]
  split
  · rfl
  · exact h

/-! ### All lines -/

/-- The states that have been read, last first, with the one that is being read. -/
def readStates (r : Reader) : List Ast.State :=
  (r.current.map fun s => { s with transitions := s.transitions.reverse }).toList ++ r.states

theorem flush_eq (r : Reader) : r.flush = { r with states := r.readStates, current := none } := by
  unfold flush readStates
  cases h : r.current with
  | none => cases r; cases h; rfl
  | some s => rfl

theorem map_name_readStates (r : Reader) :
    r.readStates.map Ast.State.name = (r.current.toList ++ r.states).map Ast.State.name := by
  unfold readStates
  cases r.current <;> rfl

theorem readStates_header (r : Reader) (name : String) (loc : Location) (header : Line) :
    readStates { r.flush with current := some ⟨name, [], loc⟩, pending := some (.state, header) } =
      ⟨name, [], loc⟩ :: r.readStates := by
  rw [flush_eq]
  rfl

theorem readStates_transition {s : Ast.State} (h : r.current = some s) (t : Ast.Transition) :
    readStates { r with current := some { s with transitions := t :: s.transitions } } =
        { s with transitions := s.transitions.reverse ++ [t] } :: r.states ∧
      r.readStates = { s with transitions := s.transitions.reverse } :: r.states := by
  unfold readStates
  rw [h]
  simp

/-- The reader after a line, whose blocks have been opened and closed before. -/
inductive Handles (r : Reader) (line : Line) : Reader → Prop
  | directive {key rest : List Char} {d : Directive} {r' : Reader}
      (context : r.contexts.head? = some .top) (content : line.content = key ++ ':' :: rest)
      (colon : ':' ∉ key) (word : Directive.ofText? (String.ofList (Text.trim key)) = some d)
      (fresh : r.IsFresh d)
      (declares : Declares (r.note line d) line (line.indent.length + key.length + 1) rest d r') :
      Handles r line r'
  | row {row : List Ast.Symbol} (context : r.contexts.head? = some .tapes)
      (value : (LineRule.tapeRow (r.here line line.indent.length)).parse line.content = .ok row) :
      Handles r line { r with rows := row :: r.rows }
  | header {name : String} (context : r.contexts.head? = some .rules)
      (value : LineRule.stateHeader.parse line.content = .ok name)
      (fresh : r.findState? name = none) :
      Handles r line
        { r.flush with current := some ⟨name, [], r.locate line⟩, pending := some (.state, line) }
  | transition {t : Ast.Transition} {s : Ast.State} (context : r.contexts.head? = some .state)
      (value : (LineRule.transition (r.here line line.indent.length)).parse line.content = .ok t)
      (even : t.vectorViolation? = none) (current : r.current = some s) :
      Handles r line { r with current := some { s with transitions := t :: s.transitions } }

/-- A content with a colon is cut at the first one. -/
theorem content_split {content key rest : List Char} (h : content = key ++ ':' :: rest)
    (hkey : ':' ∉ key) :
    content.takeWhile (· != ':') = key ∧ content.dropWhile (· != ':') = ':' :: rest := by
  have hall : ∀ c ∈ key, (c != ':') = true := fun c hc => by
    simpa using fun h' : c = ':' => hkey (h' ▸ hc)
  rw [h, List.takeWhile_append_of_pos hall, List.dropWhile_append_of_pos hall]
  simp

theorem isFresh_iff {d : Directive} (hd : r.seenLine? d = none) :
    (d.variants.filter fun v => (r.seenLine? v.1).isSome || (r.seenLine? v.2).isSome) = none ↔
      r.IsFresh d := by
  simp only [Option.filter_eq_none_iff, IsFresh, hd, true_and, Bool.or_eq_true, not_or,
    Option.not_isSome_iff_eq_none, Option.mem_def]

theorem directiveLine_eq_ok_iff :
    r.directiveLine line = .ok r' ↔
      ∃ key rest d, line.content = key ++ ':' :: rest ∧ ':' ∉ key ∧
        Directive.ofText? (String.ofList (Text.trim key)) = some d ∧ r.IsFresh d ∧
        Declares (r.note line d) line (line.indent.length + key.length + 1) rest d r' := by
  unfold directiveLine
  constructor
  · intro h
    dsimp only at h
    split at h
    · cases h
    · next c rest hdrop =>
      have hc : c = ':' := by
        have := List.head?_dropWhile_not (· != ':') line.content
        simpa [hdrop] using this
      subst hc
      split at h
      · cases h
      · next d hd =>
        split at h
        · cases h
        · next hseen =>
          split at h
          · cases h
          · next hvar =>
            refine ⟨_, rest, d, ?_, ?_, hd, (isFresh_iff hseen).1 hvar, declare_eq_ok_iff.1 h⟩
            · rw [← hdrop, List.takeWhile_append_dropWhile]
            · intro hmem
              simpa using List.mem_takeWhile_imp hmem
  · rintro ⟨key, rest, d, hcontent, hkey, hd, hfresh, h⟩
    obtain ⟨htake, hdrop⟩ := content_split hcontent hkey
    simp only [htake, hdrop, hd, hfresh.1, (isFresh_iff hfresh.1).2 hfresh]
    exact declare_eq_ok_iff.2 h

theorem rowLine_eq_ok_iff :
    r.rowLine line = .ok r' ↔
      ∃ row, (LineRule.tapeRow (r.here line line.indent.length)).parse line.content = .ok row ∧
        r' = { r with rows := row :: r.rows } := by
  unfold rowLine
  rw [bind_eq_ok]
  constructor
  · rintro ⟨row, hrow, h⟩
    cases h
    exact ⟨row, readValue_eq_ok_iff.1 hrow, rfl⟩
  · rintro ⟨row, hrow, rfl⟩
    exact ⟨row, readValue_eq_ok_iff.2 hrow, rfl⟩

theorem headerLine_eq_ok_iff :
    r.headerLine line = .ok r' ↔
      ∃ name, LineRule.stateHeader.parse line.content = .ok name ∧ r.findState? name = none ∧
        r' = { r.flush with
          current := some ⟨name, [], r.locate line⟩, pending := some (.state, line) } := by
  unfold headerLine
  constructor
  · intro h
    split at h
    · split at h <;> cases h
    · next name hname =>
      split at h
      · cases h
      · next hfind => cases h; exact ⟨name, hname, hfind, rfl⟩
  · rintro ⟨name, hname, hfind, rfl⟩
    simp [hname, hfind]

theorem transitionLine_eq_ok_iff :
    r.transitionLine line = .ok r' ↔
      ∃ t s, (LineRule.transition (r.here line line.indent.length)).parse line.content = .ok t ∧
        t.vectorViolation? = none ∧ r.current = some s ∧
        r' = { r with current := some { s with transitions := t :: s.transitions } } := by
  unfold transitionLine
  constructor
  · intro h
    dsimp only at h
    split at h
    · split at h <;> cases h
    · next t ht =>
      split at h
      · cases h
      · next s hv hs => cases h; exact ⟨t, s, ht, hv, hs, rfl⟩
      · cases h
  · rintro ⟨t, s, ht, hv, hs, rfl⟩
    simp [ht, hv, hs]

/-- **A line is fed without error exactly if it enters a block and is handled there.** -/
theorem feed_eq_ok_iff : r.feed line = .ok r' ↔ ∃ r₁, Enters r line r₁ ∧ Handles r₁ line r' := by
  unfold feed
  rw [bind_eq_ok]
  refine exists_congr fun r₁ => ?_
  rw [enter_eq_ok_iff]
  refine and_congr_right fun _ => ?_
  constructor
  · intro h
    split at h
    · next hc =>
      obtain ⟨key, rest, d, hcontent, hkey, hd, hfresh, h⟩ := directiveLine_eq_ok_iff.1 h
      exact .directive (by rw [hc]; rfl) hcontent hkey hd hfresh h
    · next hc =>
      obtain ⟨row, hrow, rfl⟩ := rowLine_eq_ok_iff.1 h
      exact .row (by rw [hc]; rfl) hrow
    · next hc =>
      obtain ⟨name, hname, hfind, rfl⟩ := headerLine_eq_ok_iff.1 h
      exact .header (by rw [hc]; rfl) hname hfind
    · next hc =>
      obtain ⟨t, s, ht, hv, hs, rfl⟩ := transitionLine_eq_ok_iff.1 h
      exact .transition (by rw [hc]; rfl) ht hv hs
    · cases h
  · intro h
    cases h with
    | directive context content colon word fresh declares =>
      obtain ⟨bs, hbs⟩ := List.head?_eq_some_iff.1 context
      simp only [hbs]
      exact directiveLine_eq_ok_iff.2 ⟨_, _, _, content, colon, word, fresh, declares⟩
    | row context value =>
      obtain ⟨bs, hbs⟩ := List.head?_eq_some_iff.1 context
      simp only [hbs]
      exact rowLine_eq_ok_iff.2 ⟨_, value, by rw [hbs]⟩
    | header context value fresh =>
      obtain ⟨bs, hbs⟩ := List.head?_eq_some_iff.1 context
      simp only [hbs]
      exact headerLine_eq_ok_iff.2 ⟨_, value, fresh, rfl⟩
    | transition context value even current =>
      obtain ⟨bs, hbs⟩ := List.head?_eq_some_iff.1 context
      simp only [hbs]
      exact transitionLine_eq_ok_iff.2 ⟨_, _, value, even, current, by rw [hbs]⟩

theorem feedAll_cons_eq_ok_iff {lines : List Line} :
    r.feedAll (line :: lines) = .ok r' ↔ ∃ r₁, r.feed line = .ok r₁ ∧ r₁.feedAll lines = .ok r' :=
  bind_eq_ok

/-- What every line preserves, the whole text preserves. -/
theorem feedAll_induction {P : Reader → Prop} {lines : List Line}
    (step : ∀ r line r', line ∈ lines → P r → r.feed line = .ok r' → P r') (hr : P r)
    (h : r.feedAll lines = .ok r') : P r' := by
  induction lines generalizing r with
  | nil => cases h; exact hr
  | cons line lines ih =>
    obtain ⟨r₁, h₁, h⟩ := feedAll_cons_eq_ok_iff.1 h
    refine ih (fun r line r' hl => step r line r' (List.mem_cons_of_mem _ hl)) ?_ h
    exact step r line r₁ List.mem_cons_self hr h₁

/-! ### The end of the text -/

/-- What a tree is made of. -/
theorem assemble_eq_ok_iff {tree : Ast.Program} :
    r.assemble = .ok tree ↔
      ∃ tape, r.tapeDecl? = some tape ∧ (r.seenLine? .rules).isSome ∧
        (∀ d ∈ r.head, d.positions.length = tape.arity) ∧
        tree = { tape := tape, states := r.states.reverse, name := r.name, head := r.head,
                 blank := r.blank, sourcePath := some r.file } := by
  unfold assemble
  split
  · next htape => simp [htape, refuseWhole]
  · next hrules => simp [hrules, refuseWhole]
  · next tape header htape hrules =>
    simp only [htape, hrules, Option.some.injEq, exists_eq_left', Option.isSome_some, true_and]
    cases hhead : r.head with
    | none => simp [eq_comm]
    | some d =>
      dsimp only
      split
      · next hcount => simp [hcount, eq_comm]
      · next hcount => split <;> simp [hcount, refuse, refuseAt]

theorem finish_eq_ok_iff {tree : Ast.Program} :
    r.finish = .ok tree ↔
      (∀ header, r.pending ≠ some (.tapes, header)) ∧
        (∀ header, r.pending ≠ some (.rules, header)) ∧
        ∃ tape, r.tapeDecl? = some tape ∧ (r.seenLine? .rules).isSome ∧
          (∀ d ∈ r.head, d.positions.length = tape.arity) ∧
          tree = { tape := tape, states := r.readStates.reverse, name := r.name, head := r.head,
                   blank := r.blank, sourcePath := some r.file } := by
  rw [finish, bind_eq_ok]
  constructor
  · rintro ⟨r₁, hr₁, h⟩
    obtain ⟨htapes, hrules, rfl⟩ := settle_eq_ok_iff.1 hr₁
    rw [flush_eq, assemble_eq_ok_iff] at h
    exact ⟨htapes, hrules, h⟩
  · rintro ⟨htapes, hrules, h⟩
    refine ⟨_, settle_eq_ok_iff.2 ⟨htapes, hrules, rfl⟩, ?_⟩
    rw [flush_eq, assemble_eq_ok_iff]
    exact h

end Reader

theorem parse_eq_ok_iff {text : List Char} {file : String} {tree : Ast.Program} :
    parse text file = .ok tree ↔
      text.length ≤ maxProgramSize ∧
        ∃ r, Reader.feedAll { file := file } (scanLines text) = .ok r ∧ r.finish = .ok tree := by
  unfold parse
  split
  · next h => simp [Reader.refuseWhole, Nat.not_le.2 h]
  · next h => rw [bind_eq_ok, and_iff_right (Nat.not_lt.1 h)]

end TapeLang
