import Mathlib
import TapeLang.Proofs.Commitment
import TapeLang.Proofs.LineRule
import TapeLang.Proofs.Phrase

/-!
# The rules of a line as a grammar

The rules of a line can be read as a grammar with free choice and free repetition. This derives the same
texts. It derives some of them twice, since an underscore is both the alias of the blank symbol and a
character that can be a symbol of its own; the alias is what is meant.

* `Ast.Symbol.IsAliased`, `Ast.Transition.IsAliased`: no underscore is a symbol of its own;
* `LineRule.IsItem`, `LineRule.IsItem.commits_listOf`, `LineRule.IsItem.commits_bracketed`: lists;
* `LineRule.commits_symbol`, `LineRule.commits_word`: symbols, names and numbers;
* `LineRule.commits_transition` and the others: each rule commits at the end of a line.
-/

namespace TapeLang

/-! ### Underscores -/

namespace Ast

/-- The spelling, with the alias of the blank symbol for an underscore without quotes. -/
def Spelling.aliased : Spelling → Spelling
  | .bare value => if value = "_" then .blank else .bare value
  | s => s

/-- The symbol, with the alias of the blank symbol for an underscore without quotes. -/
def Symbol.aliased (s : Symbol) : Symbol := { s with spelling := s.spelling.aliased }

/-- The transition, with the alias of the blank symbol for each underscore without quotes. -/
def Transition.aliased (t : Transition) : Transition :=
  { t with read := t.read.map Symbol.aliased, write := t.write.map (List.map Symbol.aliased) }

/-- An underscore without quotes is the alias of the blank symbol. -/
def Symbol.IsAliased (s : Symbol) : Prop := s.spelling ≠ .bare "_"

/-- In the transition, underscores without quotes are aliases of the blank symbol. -/
def Transition.IsAliased (t : Transition) : Prop :=
  (∀ s ∈ t.read, s.IsAliased) ∧ ∀ row ∈ t.write, ∀ s ∈ row, s.IsAliased

theorem Symbol.isAliased_aliased (s : Symbol) : s.aliased.IsAliased := by
  obtain ⟨spelling, loc⟩ := s
  cases spelling with
  | bare value =>
    by_cases h : value = "_"
    · simp [aliased, Spelling.aliased, IsAliased, h]
    · simp [aliased, Spelling.aliased, IsAliased, h]
  | blank | quoted => simp [aliased, Spelling.aliased, IsAliased]

theorem Symbol.IsAliased.aliased_eq {s : Symbol} (h : s.IsAliased) : s.aliased = s := by
  obtain ⟨spelling, loc⟩ := s
  cases spelling with
  | bare value =>
    have hvalue : value ≠ "_" := fun hvalue => h (congrArg Spelling.bare hvalue)
    simp [aliased, Spelling.aliased, hvalue]
  | blank | quoted => rfl

theorem isAliased_map_aliased (row : List Symbol) : ∀ s ∈ row.map Symbol.aliased, s.IsAliased := by
  intro s hs
  obtain ⟨s, -, rfl⟩ := List.mem_map.1 hs
  exact s.isAliased_aliased

theorem map_aliased_eq {row : List Symbol} (h : ∀ s ∈ row, s.IsAliased) :
    row.map Symbol.aliased = row := by
  rw [List.map_congr_left fun s hs => (h s hs).aliased_eq, List.map_id']

theorem Transition.isAliased_aliased (t : Transition) : t.aliased.IsAliased := by
  refine ⟨isAliased_map_aliased t.read, fun row hrow => ?_⟩
  obtain ⟨row, -, rfl⟩ := Option.map_eq_some_iff.1 hrow
  exact isAliased_map_aliased row

theorem Transition.IsAliased.aliased_eq {t : Transition} (h : t.IsAliased) : t.aliased = t := by
  obtain ⟨read, write, moves, next, multi, loc⟩ := t
  have hwrite : write.map (List.map Symbol.aliased) = write := by
    cases write with
    | none => rfl
    | some row => exact congrArg some (map_aliased_eq (h.2 row rfl))
  simp only [aliased, map_aliased_eq h.1, hwrite]

end Ast

namespace LineRule

open Pattern

variable {α β γ : Type} {here : Nat → Location} {t u rest : List Char}

/-! ### Blanks and separators -/

theorem commits_blanks : blanks.Commits id Unblank := commits_run Text.isBlank

theorem commits_trailing_blanks : blanks.Commits id (· = []) :=
  commits_blanks.mono fun _ hrest => hrest ▸ unblank_nil

/-- A blank belongs neither to a name nor to a number. -/
theorem word_of_isBlank {c : Char} (h : Text.isBlank c = true) :
    isNameTail c = false ∧ Text.isDecimal c = false := by
  have hcode := Text.mem_spaceCodes (Text.isSpace_of_isBlank h)
  exact ⟨Text.isNameTail_eq_false hcode, Text.isDecimal_eq_false hcode⟩

/-- A pattern whose texts do not begin with a blank can follow blanks. -/
theorem unblank_of_begins {p : Pattern α} (h : p.Begins fun c => Text.isBlank c = false) {n : Nat}
    {v : α} (hp : p.Derives n t v) (rest : List Char) : Unblank (t ++ rest) := by
  obtain ⟨c, cs, rfl, hc⟩ := h hp
  exact unblank_cons hc

section Between

variable {mark : Pattern β}

/-- A mark between blanks, such as a comma or an arrow. -/
theorem commits_between (h : mark.Commits id fun _ => True)
    (hbegins : mark.Begins fun c => Text.isBlank c = false) :
    (blanks.andThen (mark.andSkip blanks)).Commits id Unblank := by
  refine commits_blanks.andThen (h.andSkip commits_blanks fun _ _ _ _ _ _ => trivial) ?_
  intro n u y rest hu _
  exact unblank_of_begins (hbegins.andSkip blanks) hu rest

theorem begins_between {S : Char → Prop} (hbegins : mark.Begins S) :
    (blanks.andThen (mark.andSkip blanks)).Begins fun c => Text.isBlank c = true ∨ S c := by
  intro n t v h
  obtain ⟨b, u, x, rfl, ⟨rfl, hb⟩, hu⟩ := derives_andThen.1 h
  cases b with
  | nil =>
    obtain ⟨c, cs, rfl, hc⟩ := hbegins.andSkip blanks hu
    exact ⟨c, cs, rfl, .inr hc⟩
  | cons c b => exact ⟨c, b ++ u, rfl, .inl (hb c List.mem_cons_self)⟩

/-- It does not match where something else stands behind the blanks. -/
theorem refuses_between {b : List Char} (hb : ∀ c ∈ b, Text.isBlank c = true) (hrest : Unblank rest)
    (h : mark.Refuses rest) : (blanks.andThen (mark.andSkip blanks)).Refuses (b ++ rest) :=
  Refuses.map ((takes_run hb hrest).refuses_seq (Refuses.map (Refuses.seq h)))

end Between

theorem commits_exactly (c : Char) : (exactly c).Commits id fun _ => True := commits_char _

theorem begins_exactly (c : Char) : (exactly c).Begins (· = c) :=
  begins_char fun _ hd => beq_iff_eq.1 hd

theorem begins_exactly_unblank {c : Char} (h : Text.isBlank c = false) :
    (exactly c).Begins fun c => Text.isBlank c = false := (begins_exactly c).mono fun _ hc => hc ▸ h

theorem commits_comma : comma.Commits id Unblank :=
  commits_between (commits_exactly ',') (begins_exactly_unblank (by decide))

theorem begins_comma : comma.Begins fun c => Text.isBlank c = true ∨ c = ',' :=
  begins_between (begins_exactly ',')

theorem commits_arrow : arrow.Commits id Unblank := by
  refine commits_between ?_ ((begins_exactly_unblank (by decide)).seq _).token
  exact ((commits_exactly '-').seq (commits_exactly '>') fun _ _ _ _ _ _ => trivial).token

/-! ### Lists -/

/-- The text begins with a blank, a comma or a closing bracket, or it is empty. -/
def Separated (t : List Char) : Prop :=
  ∀ c ∈ t.head?, Text.isBlank c = true ∨ c = ',' ∨ c = ']'

/-- Behind blanks the text begins with a closing bracket, or nothing is there. -/
def Closes (t : List Char) : Prop :=
  ∃ b u, t = b ++ u ∧ (∀ c ∈ b, Text.isBlank c = true) ∧ Stops u

theorem Closes.separated (h : Closes t) : Separated t := by
  obtain ⟨b, u, rfl, hb, hu⟩ := h
  intro c hc
  cases b with
  | nil => exact .inr (.inr (hu c hc))
  | cons d b =>
    obtain rfl : d = c := by simpa using hc
    exact .inl (hb d List.mem_cons_self)

theorem Closes.refuses_comma (h : Closes t) : comma.Refuses t := by
  obtain ⟨b, u, rfl, hb, hu⟩ := h
  refine refuses_between hb hu.unblank (refuses_char fun c hc => ?_)
  rw [hu c hc]
  decide

/-- What an item has to be like so that a list of such items commits. -/
structure IsItem (item : Pattern α) (fix : α → α) : Prop where
  commits : item.Commits fix Separated
  begins : item.Begins fun c => Text.isBlank c = false
  refuses : ∀ ⦃rest⦄, Stops rest → item.Refuses rest

section Lists

variable {item : Pattern α} {fix : α → α}

theorem IsItem.commits_listOf (h : IsItem item fix) : (listOf item).Commits (List.map fix) Closes := by
  have hnext : (comma.andThen item).Commits fix Separated :=
    commits_comma.andThen h.commits fun _ _ _ rest hu _ => unblank_of_begins h.begins hu rest
  have hcomma : ∀ ⦃n u y⦄, (comma.andThen item).Derives n u y → ∀ rest, Separated (u ++ rest) := by
    intro n u y hu rest
    obtain ⟨c, cs, rfl, hc⟩ := begins_comma.andThen item hu
    rintro _ ⟨⟩
    exact hc.imp_right .inl
  have hmany := hnext.many (begins_comma.andThen item) hcomma
  have hitems := h.commits.seq hmany (by
    intro n u vs rest hu hrest
    cases (hu : Repeats _ n u vs) with
    | nil => exact hrest.1
    | cons head _ =>
      rw [List.append_assoc]
      exact hcomma head _)
  have hlist : (listOf item).Commits (List.map fix) fun rest =>
      Separated rest ∧ (comma.andThen item).Refuses rest := Commits.rule (hitems.map fun _ _ => rfl)
  exact hlist.mono fun rest hrest =>
    ⟨hrest.separated, Refuses.map (Refuses.seq hrest.refuses_comma)⟩

theorem IsItem.begins_listOf (h : IsItem item fix) :
    (listOf item).Begins fun c => Text.isBlank c = false := ((h.begins.seq _).map _).rule

theorem IsItem.refuses_listOf (h : IsItem item fix) (hrest : Stops rest) : (listOf item).Refuses rest :=
  Refuses.rule (Refuses.map (Refuses.seq (h.refuses hrest)))

/-- An optional list between blanks. If there is no list, the first blanks take the others too, so that
what comes behind them has to be derived without them. -/
theorem IsItem.commits_padded {tail : Pattern γ} {ft : γ → γ} {G : List Char → Prop} (h : IsItem item fix)
    (htail : tail.Commits ft G)
    (hsplit : ∀ ⦃n u y rest⦄, tail.Derives n u y → G rest → ∃ b u' y', u = b ++ u' ∧
      (∀ c ∈ b, Text.isBlank c = true) ∧ tail.Derives (n + b.length) u' y' ∧ Stops (u' ++ rest)) :
    (blanks.andThen ((Pattern.map (fun _ x => x.getD []) (.opt (listOf item))).andSkip tail)).Commits
      (List.map fix) G := by
  intro n t v rest hv hrest
  obtain ⟨b, s, x, rfl, ⟨rfl, hb⟩, hs⟩ := derives_andThen.1 hv
  obtain ⟨l, u, y, rfl, ⟨x, hx, rfl⟩, hu⟩ := derives_andSkip.1 hs
  obtain ⟨b', u', y', rfl, hb', hu', hstops⟩ := hsplit hu hrest
  obtain ⟨rfl, rfl⟩ | ⟨vs, hvs, rfl⟩ := hx
  · -- the first blanks take the second
    have hblanks : blanks.match? n ((b ++ b') ++ (u' ++ rest)) =
        some ⟨b ++ b', n + (b ++ b').length, u' ++ rest⟩ :=
      commits_blanks ⟨rfl, List.forall_mem_append.2 ⟨hb, hb'⟩⟩ hstops.unblank
    have hlist : (Pattern.map (fun _ x => x.getD []) (.opt (listOf item))).match?
        (n + (b ++ b').length) (u' ++ rest) = some ⟨[], n + (b ++ b').length, u' ++ rest⟩ := by
      obtain ⟨_, hnone, rfl⟩ := (h.refuses_listOf hstops).opt (n + (b ++ b').length)
      exact (match?_map _ _ _ _).trans (by rw [← List.nil_append (u' ++ rest), hnone]; rfl)
    rw [List.length_nil, Nat.add_zero, Nat.add_assoc, ← List.length_append] at hu'
    have hmatch := match?_andThen hblanks (match?_andSkip hlist (htail hu' hrest))
    simpa [Nat.add_assoc] using hmatch
  · have hclose : Closes (b' ++ u' ++ rest) := ⟨b', u' ++ rest, List.append_assoc _ _ _, hb', hstops⟩
    have hblanks : blanks.match? n (b ++ (l ++ (b' ++ u' ++ rest))) =
        some ⟨b, n + b.length, l ++ (b' ++ u' ++ rest)⟩ :=
      commits_blanks ⟨rfl, hb⟩ (unblank_of_begins h.begins_listOf hvs _)
    obtain ⟨c, cs, hl, -⟩ := h.begins_listOf hvs
    have hopt := match?_opt_of_match? (h.commits_listOf hvs hclose) (by simp [hl])
    have hlist : (Pattern.map (fun _ x => x.getD []) (.opt (listOf item))).match? (n + b.length)
        (l ++ (b' ++ u' ++ rest)) =
          some ⟨vs.map fix, n + b.length + l.length, b' ++ u' ++ rest⟩ := by
      rw [match?_map, hopt]
      rfl
    have hmatch := match?_andThen hblanks (match?_andSkip hlist (htail hu hrest))
    simpa [Nat.add_assoc] using hmatch

theorem IsItem.commits_bracketed (h : IsItem item fix) :
    (bracketed (listOf item)).Commits (List.map fix) fun _ => True := by
  have hunblank : ∀ ⦃n u y⦄, (exactly ']').Derives n u y → ∀ rest, Unblank (u ++ rest) :=
    fun _ _ _ hu rest =>
      unblank_of_begins (begins_exactly_unblank (by decide)) hu rest
  have htail : (blanks.andThen (exactly ']')).Commits id fun _ => True :=
    commits_blanks.andThen (commits_exactly ']') fun _ _ _ rest hu _ => hunblank hu rest
  refine (commits_exactly '[').andThen (h.commits_padded htail ?_) fun _ _ _ _ _ _ => trivial
  intro n u y rest hu _
  obtain ⟨b, u, x, rfl, ⟨rfl, hb⟩, hu⟩ := derives_andThen.1 hu
  obtain ⟨c, cs, rfl, rfl⟩ := begins_exactly ']' hu
  refine ⟨b, ']' :: cs, y, rfl, hb, ?_, stops_cons⟩
  exact derives_andThen.2 ⟨[], _, [], rfl, ⟨rfl, by simp⟩, by simpa using hu⟩

end Lists

/-! ### Symbols, moves, names and numbers -/

theorem begins_symbol : (symbol here).Begins fun c => Text.isBlank c = false ∧ c ≠ '[' := by
  refine (Begins.alt ?_ (Begins.alt ?_ ?_)).rule
  · exact ((((begins_exactly '\'').andThen _).token.map _).rule).mono fun _ hc => hc ▸ by decide
  · exact ((begins_exactly '_').map _).rule.mono fun _ hc => hc ▸ by decide
  · refine ((begins_char fun c hc => ?_).map _).rule
    simp only [isBareSymbol, Bool.not_eq_true', Bool.or_eq_false_iff, beq_eq_false_iff_ne] at hc
    refine ⟨?_, hc.1.1.2⟩
    have hwhite := hc.1.1.1.1.1.1.1
    simp only [Text.isBlank, Bool.or_eq_false_iff, beq_eq_false_iff_ne]
    constructor
    · rintro rfl
      exact absurd hwhite (by decide)
    · rintro rfl
      exact absurd hwhite (by decide)

theorem commits_quotedSymbol : (quotedSymbol here).Commits Ast.Symbol.aliased fun _ => True := by
  have hclose : ((Pattern.char fun _ => true).andSkip (exactly '\'')).Commits id fun _ => True :=
    (commits_char _).andSkip (commits_exactly '\'') fun _ _ _ _ _ _ => trivial
  refine Commits.rule (Commits.map (Commits.token ?_) fun _ _ => rfl)
  exact (commits_exactly '\'').andThen hclose fun _ _ _ _ _ _ => trivial

/-- Without quotes, a character is a symbol of its own unless it is an underscore. -/
theorem commits_unquoted :
    (Pattern.alt (blankAlias here) (bareSymbol here)).Commits Ast.Symbol.aliased fun _ => True := by
  rintro n t v rest (⟨c, ⟨rfl, hc⟩, rfl⟩ | ⟨c, ⟨rfl, hc⟩, rfl⟩) -
  · rw [beq_iff_eq.1 hc]
    rfl
  · by_cases hunderscore : c = '_'
    · subst hunderscore
      rfl
    · have halias : (blankAlias here).Refuses ([c] ++ rest) :=
        refuses_blankAlias here (by rintro d ⟨⟩; exact hunderscore)
      have hbare : (bareSymbol here).match? n ([c] ++ rest) =
          some ⟨⟨.bare (String.singleton c), here n⟩, n + 1, rest⟩ := by
        simp [bareSymbol, match?, hc]
      have hvalue : String.singleton c ≠ "_" := fun h =>
        hunderscore (by simpa using congrArg String.toList h)
      rw [match?_alt, halias n, hbare]
      simp [Ast.Symbol.aliased, Ast.Spelling.aliased, hvalue]

/-- Whatever follows it, a symbol is one character, or three with its quotes. -/
theorem commits_symbol : (symbol here).Commits Ast.Symbol.aliased fun _ => True := by
  refine Commits.rule (commits_quotedSymbol.alt commits_unquoted ?_)
  rintro n t v rest h -
  refine refuses_quotedSymbol here ?_
  rcases h with ⟨c, ⟨rfl, hc⟩, rfl⟩ | ⟨c, ⟨rfl, hc⟩, rfl⟩
  · rintro d ⟨⟩
    rw [beq_iff_eq.1 hc]
    decide
  · rintro d ⟨⟩ rfl
    exact absurd hc (by decide)

theorem isItem_symbol : IsItem (symbol here) Ast.Symbol.aliased where
  commits := commits_symbol.mono fun _ _ => trivial
  begins := begins_symbol.mono fun _ hc => hc.1
  refuses _ hrest := refuses_symbol here hrest

theorem begins_direction : direction.Begins fun c => Text.isBlank c = false := by
  refine ((begins_char fun c hc => ?_).map _).rule
  simp only [isDirection, Bool.or_eq_true, beq_iff_eq] at hc
  rcases hc with ((((rfl | rfl) | rfl) | rfl) | rfl) | rfl <;> rfl

theorem commits_direction : direction.Commits id fun _ => True :=
  Commits.rule ((commits_char _).map fun _ _ => rfl)

theorem isItem_direction : IsItem direction id where
  commits := commits_direction.mono fun _ _ => trivial
  begins := begins_direction
  refuses rest hrest := by
    refine Refuses.rule (Refuses.map (refuses_char fun c hc => ?_))
    rw [hrest c hc]
    rfl

/-- A name or a number goes on as far as its characters do. -/
theorem commits_word {p q : Char → Bool} (f : Nat → Char × List Char → β) :
    (Pattern.rule (.map f (.token (.seq (.char p) (.run q))))).Commits id
      fun rest => ∀ c ∈ rest.head?, q c = false := by
  refine Commits.rule (Commits.map (Commits.token ?_) fun _ _ => rfl)
  exact (commits_char p).seq (commits_run q) fun _ _ _ _ _ _ => trivial

theorem begins_word {p q : Char → Bool} (f : Nat → Char × List Char → β)
    (hp : ∀ c, p c = true → Text.isBlank c = false) :
    (Pattern.rule (.map f (.token (.seq (.char p) (.run q))))).Begins
      fun c => Text.isBlank c = false :=
  (((begins_char hp).seq _).token.map f).rule

/-- No blank, comma or closing bracket belongs to a number. -/
theorem isDecimal_of_separated (h : Separated rest) : ∀ c ∈ rest.head?, Text.isDecimal c = false := by
  intro c hc
  rcases h c hc with hblank | rfl | rfl
  · exact (word_of_isBlank hblank).2
  · rfl
  · rfl

theorem isItem_index : IsItem index id where
  commits := (commits_word _).mono fun _ hrest => isDecimal_of_separated hrest
  begins := by
    refine begins_word _ fun c hc => Bool.eq_false_of_not_eq_true fun hblank => ?_
    rw [(word_of_isBlank hblank).2] at hc
    cases hc
  refuses rest hrest := refuses_index hrest

theorem begins_stateName : stateName.Begins fun c => Text.isBlank c = false := by
  refine begins_word _ fun c hc => Text.isBlank_of_isSpace_eq_false (Text.isSpace_of_isNameTail ?_)
  simp [isNameTail, hc]

/-- No blank, comma or closing bracket belongs to a name. -/
theorem commits_stateName : stateName.Commits id Separated := by
  refine (commits_word _).mono fun rest hrest c hc => ?_
  rcases hrest c hc with hblank | rfl | rfl
  · exact (word_of_isBlank hblank).1
  · rfl
  · rfl

/-! ### Whole lines -/

section Lines

variable {p : Pattern α} {fix : α → α}

theorem separated_of_blanks {b : List Char} (hb : ∀ c ∈ b, Text.isBlank c = true) : Separated b :=
  fun c hc => .inl (hb c (List.mem_of_mem_head? hc))

/-- At the end of a line there may be blanks. -/
theorem Commits.andBlanks (h : p.Commits fix Separated) : (p.andSkip blanks).Commits fix (· = []) := by
  refine h.andSkip commits_trailing_blanks ?_
  rintro n u y rest ⟨rfl, hu⟩ rfl
  rw [List.append_nil]
  exact separated_of_blanks hu

/-- At the beginning of a value there may be blanks too. -/
theorem Commits.betweenBlanks (h : p.Commits fix Separated)
    (hbegins : p.Begins fun c => Text.isBlank c = false) :
    (blanks.andThen (p.andSkip blanks)).Commits fix (· = []) := by
  refine commits_blanks.andThen (Commits.andBlanks h) ?_
  intro n u y rest hu _
  exact unblank_of_begins (hbegins.andSkip blanks) hu rest

end Lines

theorem commits_vector {item : Pattern α} {fix : α → α} (h : IsItem item fix) :
    (Pattern.rule (bracketed (listOf item))).Commits (List.map fix) fun _ => True :=
  Commits.rule h.commits_bracketed

theorem begins_vector (items : Pattern (List α)) : (Pattern.rule (bracketed items)).Begins (· = '[') :=
  ((begins_exactly '[').andThen _).rule

section Parts

variable {symbols : Pattern α} {moves : Pattern β} {fix : α → α}

/-- The arrow of a written part does not match where the comma before the move stands. -/
theorem refuses_arrow_of_comma {n : Nat} {v : β} (h : (comma.andThen moves).Derives n u v)
    (rest : List Char) : arrow.Refuses (u ++ rest) := by
  obtain ⟨t, w, x, rfl, ht, -⟩ := derives_andThen.1 h
  obtain ⟨b, t, y, rfl, ⟨rfl, hb⟩, ht⟩ := derives_andThen.1 ht
  obtain ⟨c, cs, rfl, rfl⟩ := (begins_exactly ',').andSkip blanks ht
  have hrefuses : (Pattern.token (.seq (exactly '-') (exactly '>'))).Refuses
      (',' :: (cs ++ (w ++ rest))) := by
    refine Refuses.token (Refuses.seq (refuses_char ?_))
    rintro d ⟨⟩
    rfl
  have harrow : arrow.Refuses (b ++ ',' :: (cs ++ (w ++ rest))) :=
    refuses_between hb (unblank_cons (by decide)) hrefuses
  simpa using harrow

/-- The parts of a transition: what is read, perhaps what is written, how the heads move and the next
state. -/
theorem commits_parts (hsymbols : symbols.Commits fix fun _ => True)
    (hsymbol : symbols.Begins fun c => Text.isBlank c = false)
    (hmoves : moves.Commits id fun _ => True) (hmove : moves.Begins fun c => Text.isBlank c = false) :
    (Pattern.seq symbols (.seq (.opt (.rule (arrow.andThen symbols)))
      (.seq (comma.andThen moves) (comma.andThen (stateName.andSkip blanks))))).Commits
        (Prod.map fix (Prod.map (Option.map fix) (Prod.map id id))) (· = []) := by
  have hnext : (comma.andThen (stateName.andSkip blanks)).Commits id (· = []) := by
    refine commits_comma.andThen (Commits.andBlanks commits_stateName) ?_
    intro n u y rest hu _
    exact unblank_of_begins (begins_stateName.andSkip blanks) hu rest
  have hmoved : (comma.andThen moves).Commits id fun _ => True :=
    commits_comma.andThen hmoves fun _ _ _ rest hu _ => unblank_of_begins hmove hu rest
  have hwrite : (Pattern.rule (arrow.andThen symbols)).Commits fix fun _ => True :=
    Commits.rule (commits_arrow.andThen hsymbols fun _ _ _ rest hu _ =>
      unblank_of_begins hsymbol hu rest)
  have hwrites : (Pattern.rule (arrow.andThen symbols)).Begins
      fun c => Text.isBlank c = true ∨ c = '-' :=
    ((begins_between ((begins_exactly '-').seq _).token).andThen _).rule
  have hrest := hmoved.seq hnext fun _ _ _ _ _ _ => trivial
  have hopt := (hwrite.opt hwrites).seq hrest (by
    rintro n u ⟨x, y⟩ rest ⟨u, w, rfl, hu, -⟩ -
    rw [List.append_assoc]
    exact ⟨trivial, Refuses.rule (Refuses.map (Refuses.seq (refuses_arrow_of_comma hu _)))⟩)
  exact hsymbols.seq hopt fun _ _ _ _ _ _ => trivial

end Parts

theorem commits_singleTransition :
    (singleTransition here).Commits Ast.Transition.aliased (· = []) := by
  refine Commits.rule (Commits.map (commits_parts commits_symbol
    (begins_symbol.mono fun _ hc => hc.1) commits_direction begins_direction) ?_)
  rintro n ⟨read, write, move, next⟩
  cases write <;> rfl

theorem commits_multiTransition :
    (multiTransition here).Commits Ast.Transition.aliased (· = []) := by
  have hmoves : directionVector.Commits id fun _ => True := by
    have hvector := commits_vector isItem_direction
    rwa [List.map_id_fun] at hvector
  have hbracket : ∀ {γ : Type} (items : Pattern (List γ)),
      (Pattern.rule (bracketed items)).Begins fun c => Text.isBlank c = false := fun items =>
    (begins_vector items).mono fun _ hc => hc ▸ by decide
  refine Commits.rule (Commits.map (commits_parts (commits_vector isItem_symbol)
    (hbracket _) hmoves (hbracket _)) ?_)
  rintro n ⟨read, write, moves, next⟩
  rfl

/-- A transition with vectors begins with a bracket, and one without does not. -/
theorem commits_transition : (transition here).Commits Ast.Transition.aliased (· = []) := by
  refine Commits.rule (commits_multiTransition.alt commits_singleTransition ?_)
  rintro n t v rest ⟨x, hx, rfl⟩ -
  obtain ⟨c, cs, rfl, hc⟩ := begins_symbol.seq _ hx
  have hbracket : (exactly '[').Refuses (c :: cs ++ rest) := by
    refine refuses_char ?_
    rintro d ⟨⟩
    simpa using hc.2
  exact Refuses.rule (Refuses.map (Refuses.seq (Refuses.rule (Refuses.map (Refuses.seq hbracket)))))

theorem commits_stateHeader : stateHeader.Commits id (· = []) := by
  have hcolon : (blanks.andThen ((exactly ':').andSkip blanks)).Commits id (· = []) :=
    (commits_between (commits_exactly ':') (begins_exactly_unblank (by decide))).mono
      fun _ hrest => hrest ▸ unblank_nil
  refine Commits.rule ((commits_word _).andSkip hcolon ?_)
  intro n u y rest hu _
  obtain ⟨c, cs, rfl, hblank | rfl⟩ := begins_between (begins_exactly ':') hu
  · rintro d ⟨⟩
    exact (word_of_isBlank hblank).1
  · rintro d ⟨⟩
    rfl

theorem commits_tapeValue : (tapeValue here).Commits (List.map Ast.Symbol.aliased) (· = []) := by
  refine Commits.rule (isItem_symbol.commits_padded commits_trailing_blanks ?_)
  rintro n u y rest ⟨rfl, hu⟩ rfl
  exact ⟨u, [], [], (List.append_nil u).symm, hu, ⟨rfl, by simp⟩, stops_nil⟩

theorem commits_tapeRow : (tapeRow here).Commits (List.map Ast.Symbol.aliased) (· = []) :=
  Commits.rule (Commits.andBlanks ((commits_vector isItem_symbol).mono fun _ _ => trivial))

theorem commits_headValue : headValue.Commits id (· = []) :=
  Commits.rule (Commits.betweenBlanks isItem_index.commits isItem_index.begins)

theorem commits_headsValue : headsValue.Commits id (· = []) := by
  have hlist : (bracketed indexList).Commits id fun _ => True := by
    have hbracketed := isItem_index.commits_bracketed
    rwa [List.map_id_fun] at hbracketed
  refine Commits.rule (Commits.betweenBlanks (hlist.mono fun _ _ => trivial) ?_)
  exact (begins_vector indexList).mono fun _ hc => hc ▸ by decide

theorem commits_blankValue : (blankValue here).Commits Ast.Symbol.aliased (· = []) :=
  Commits.rule (Commits.betweenBlanks (commits_symbol.mono fun _ _ => trivial)
    (begins_symbol.mono fun _ hc => hc.1))

end LineRule

end TapeLang
