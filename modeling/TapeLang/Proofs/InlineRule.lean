import Mathlib
import TapeLang.Proofs.Comments
import TapeLang.Proofs.LineRule

/-!
# The rules of a line derive no comment

In a text that a rule of a line derives, a number sign or a quote is always part of a quoted symbol. The
search for a comment knows nothing of the rules and passes over a quoted symbol because of the quotes at both
of its ends; in such a text it still comes to each symbol at its first character, so it finds no comment in
the text, and the first one behind it.

* `Pattern.QuotesSigns`: this is so in all that a pattern derives, with one lemma for each way of forming
  patterns;
* `LineRule.quotesSigns_transition` and its like: the rules of which a line is made;
* `LineRule.isInline_transition`, `LineRule.isInline_stateHeader`: the lines of a block of rules;
* `IsRuleLine`: the lines that a rule accepts, and directives with a value that a rule accepts;
* `comment_is_never_cut_out_of_line`: nothing is cut out of them, and what is added behind them is cut off.
-/

namespace TapeLang

namespace Pattern

variable {α β : Type}

/-- Every text that the pattern derives is inline, if it has no line break. -/
def IsInline (p : Pattern α) : Prop :=
  ∀ n s v, p.Derives n s v → (∀ c ∈ s, Text.isLineBreak c = false) → Inline s

/-- In every text that the pattern derives, quotes and number signs belong to quoted symbols. -/
def QuotesSigns (p : Pattern α) : Prop := ∀ n s v, p.Derives n s v → SignsQuoted s

theorem QuotesSigns.isInline {p : Pattern α} (h : p.QuotesSigns) : p.IsInline := by
  intro n s v hs hbreak
  exact (h n s v hs).inline hbreak

theorem quotesSigns_char {p : Char → Bool} (h : ∀ c, p c = true → c ∉ ['\'', '#']) :
    (Pattern.char p).QuotesSigns := by
  rintro n s c ⟨rfl, hc⟩
  exact .plain (h c hc) .nil

theorem quotesSigns_exactly {c : Char} (h : c ∉ ['\'', '#']) : (exactly c).QuotesSigns := by
  refine quotesSigns_char fun d hd => ?_
  rwa [beq_iff_eq.1 hd]

theorem quotesSigns_run {p : Char → Bool} (h : ∀ c, p c = true → c ∉ ['\'', '#']) :
    (Pattern.run p).QuotesSigns := by
  rintro n s cs ⟨rfl, hcs⟩
  exact .of_forall fun c hc => h c (hcs c hc)

theorem QuotesSigns.seq {a : Pattern α} {b : Pattern β} (ha : a.QuotesSigns) (hb : b.QuotesSigns) :
    (Pattern.seq a b).QuotesSigns := by
  rintro n s v ⟨s₁, s₂, rfl, h₁, h₂⟩
  exact (ha _ _ _ h₁).append (hb _ _ _ h₂)

theorem QuotesSigns.alt {a b : Pattern α} (ha : a.QuotesSigns) (hb : b.QuotesSigns) :
    (Pattern.alt a b).QuotesSigns := by
  rintro n s v (h | h)
  · exact ha _ _ _ h
  · exact hb _ _ _ h

theorem QuotesSigns.opt {a : Pattern α} (ha : a.QuotesSigns) : (Pattern.opt a).QuotesSigns := by
  rintro n s v (⟨rfl, -⟩ | ⟨x, hx, -⟩)
  · exact .nil
  · exact ha _ _ _ hx

theorem QuotesSigns.many {a : Pattern α} (ha : a.QuotesSigns) : (Pattern.many a).QuotesSigns := by
  intro n s vs h
  change Repeats _ n s vs at h
  induction h with
  | nil => exact .nil
  | cons head _ ih => exact (ha _ _ _ head).append ih

theorem QuotesSigns.map {a : Pattern α} (ha : a.QuotesSigns) (f : Nat → α → β) :
    (Pattern.map f a).QuotesSigns := by
  rintro n s v ⟨x, hx, -⟩
  exact ha _ _ _ hx

theorem QuotesSigns.token {a : Pattern α} (ha : a.QuotesSigns) : (Pattern.token a).QuotesSigns := ha

theorem QuotesSigns.rule {a : Pattern α} (ha : a.QuotesSigns) : (Pattern.rule a).QuotesSigns := ha

theorem QuotesSigns.andThen {a : Pattern α} {b : Pattern β} (ha : a.QuotesSigns) (hb : b.QuotesSigns) :
    (a.andThen b).QuotesSigns := (ha.seq hb).map _

theorem QuotesSigns.andSkip {a : Pattern α} {b : Pattern β} (ha : a.QuotesSigns) (hb : b.QuotesSigns) :
    (a.andSkip b).QuotesSigns := (ha.seq hb).map _

end Pattern

namespace LineRule

open Pattern

variable {α : Type} {here : Nat → Location}

theorem quotesSigns_blanks : blanks.QuotesSigns := by
  refine quotesSigns_run fun c hc => ?_
  simp only [Text.isBlank, Bool.or_eq_true, beq_iff_eq] at hc
  rcases hc with rfl | rfl <;> decide

theorem quotesSigns_comma : comma.QuotesSigns :=
  quotesSigns_blanks.andThen ((quotesSigns_exactly (by decide)).andSkip quotesSigns_blanks)

theorem quotesSigns_arrow : arrow.QuotesSigns :=
  quotesSigns_blanks.andThen
    (((quotesSigns_exactly (by decide)).seq (quotesSigns_exactly (by decide))).token.andSkip
      quotesSigns_blanks)

theorem quotesSigns_listOf {item : Pattern α} (h : item.QuotesSigns) : (listOf item).QuotesSigns :=
  ((h.seq (quotesSigns_comma.andThen h).many).map _).rule

theorem quotesSigns_bracketed {item : Pattern α} (h : item.QuotesSigns) :
    (bracketed (listOf item)).QuotesSigns :=
  (quotesSigns_exactly (by decide)).andThen (quotesSigns_blanks.andThen
    (((quotesSigns_listOf h).opt.map _).andSkip
      (quotesSigns_blanks.andThen (quotesSigns_exactly (by decide)))))

/-- A quote or a number sign is a symbol only between quotes. -/
theorem quotesSigns_symbol : (symbol here).QuotesSigns := by
  intro n s v h
  rcases h with ⟨c, h, -⟩ | ⟨c, ⟨rfl, hc⟩, -⟩ | ⟨c, ⟨rfl, hc⟩, -⟩
  · obtain ⟨s₁, s₂, x, rfl, ⟨rfl, hx⟩, h₂⟩ := derives_andThen.1 h
    obtain ⟨s₃, s₄, y, rfl, ⟨rfl, -⟩, rfl, hy⟩ := derives_andSkip.1 h₂
    rw [beq_iff_eq] at hx hy
    subst hx hy
    exact .quoted .nil
  · rw [beq_iff_eq] at hc
    subst hc
    exact .plain (by decide) .nil
  · refine .plain ?_ .nil
    simp only [isBareSymbol, Bool.not_eq_true', Bool.or_eq_false_iff, beq_eq_false_iff_ne] at hc
    simp only [List.mem_cons, List.not_mem_nil, or_false, not_or]
    exact ⟨hc.2, hc.1.1.1.1.1.1.2⟩

theorem quotesSigns_direction : direction.QuotesSigns := by
  refine ((quotesSigns_char fun c hc => ?_).map _).rule
  simp only [isDirection, Bool.or_eq_true, beq_iff_eq] at hc
  rcases hc with ((((rfl | rfl) | rfl) | rfl) | rfl) | rfl <;> decide

theorem quotesSigns_stateName : stateName.QuotesSigns := by
  have hsign : ∀ c, isNameTail c = true → c ∉ ['\'', '#'] := by
    intro c hc hmem
    exact Text.sign_of_isNameTail hc (List.mem_append_left [':', ','] hmem)
  have hfirst : ∀ c, Text.isNameChar c = true → c ∉ ['\'', '#'] := fun c hc =>
    hsign c (by simp [isNameTail, hc])
  exact (((quotesSigns_char hfirst).seq (quotesSigns_run hsign)).token.map _).rule

theorem quotesSigns_symbolVector : (symbolVector here).QuotesSigns :=
  (quotesSigns_bracketed quotesSigns_symbol).rule

theorem quotesSigns_singleTransition : (singleTransition here).QuotesSigns :=
  ((quotesSigns_symbol.seq ((quotesSigns_arrow.andThen quotesSigns_symbol).rule.opt.seq
    ((quotesSigns_comma.andThen quotesSigns_direction).seq
      (quotesSigns_comma.andThen (quotesSigns_stateName.andSkip quotesSigns_blanks))))).map _).rule

theorem quotesSigns_multiTransition : (multiTransition here).QuotesSigns := by
  have hmoves : directionVector.QuotesSigns := (quotesSigns_bracketed quotesSigns_direction).rule
  exact ((quotesSigns_symbolVector.seq ((quotesSigns_arrow.andThen quotesSigns_symbolVector).rule.opt.seq
    ((quotesSigns_comma.andThen hmoves).seq
      (quotesSigns_comma.andThen (quotesSigns_stateName.andSkip quotesSigns_blanks))))).map _).rule

theorem quotesSigns_transition : (transition here).QuotesSigns :=
  (quotesSigns_multiTransition.alt quotesSigns_singleTransition).rule

theorem quotesSigns_stateHeader : stateHeader.QuotesSigns :=
  (quotesSigns_stateName.andSkip
    (quotesSigns_blanks.andThen ((quotesSigns_exactly (by decide)).andSkip quotesSigns_blanks))).rule

theorem quotesSigns_tapeRow : (tapeRow here).QuotesSigns :=
  (quotesSigns_symbolVector.andSkip quotesSigns_blanks).rule

theorem quotesSigns_tapeValue : (tapeValue here).QuotesSigns :=
  (quotesSigns_blanks.andThen
    (((quotesSigns_listOf quotesSigns_symbol).opt.map _).andSkip quotesSigns_blanks)).rule

theorem quotesSigns_blankValue : (blankValue here).QuotesSigns :=
  (quotesSigns_blanks.andThen (quotesSigns_symbol.andSkip quotesSigns_blanks)).rule

/-- **No comment begins in a transition.** -/
theorem isInline_transition : (transition here).IsInline := quotesSigns_transition.isInline

/-- **No comment begins in the header of a state.** -/
theorem isInline_stateHeader : stateHeader.IsInline := quotesSigns_stateHeader.isInline

end LineRule

/-! ### Lines that a rule accepts -/

/-- A line that a rule accepts: a transition, a row of the tapes or the header of a state, or the directive
for the tape or for the blank symbol with its value. -/
inductive IsRuleLine : List Char → Prop
  | transition {here : Nat → Location} {line : List Char} {value : Ast.Transition}
      (accepted : (LineRule.transition here).parse line = .ok value) : IsRuleLine line
  | tapeRow {here : Nat → Location} {line : List Char} {value : List Ast.Symbol}
      (accepted : (LineRule.tapeRow here).parse line = .ok value) : IsRuleLine line
  | stateHeader {line : List Char} {value : String}
      (accepted : LineRule.stateHeader.parse line = .ok value) : IsRuleLine line
  | tape {here : Nat → Location} {text : List Char} {value : List Ast.Symbol}
      (accepted : (LineRule.tapeValue here).parse text = .ok value) : IsRuleLine ("tape:".toList ++ text)
  | blank {here : Nat → Location} {text : List Char} {value : Ast.Symbol}
      (accepted : (LineRule.blankValue here).parse text = .ok value) : IsRuleLine ("blank:".toList ++ text)

theorem IsRuleLine.signsQuoted {line : List Char} (h : IsRuleLine line) : SignsQuoted line := by
  have hword : SignsQuoted "tape:".toList ∧ SignsQuoted "blank:".toList :=
    ⟨.of_forall (by simp), .of_forall (by simp)⟩
  cases h with
  | transition accepted => exact LineRule.quotesSigns_transition _ _ _ (Pattern.derives_of_parse accepted)
  | tapeRow accepted => exact LineRule.quotesSigns_tapeRow _ _ _ (Pattern.derives_of_parse accepted)
  | stateHeader accepted => exact LineRule.quotesSigns_stateHeader _ _ _ (Pattern.derives_of_parse accepted)
  | tape accepted =>
    exact hword.1.append (LineRule.quotesSigns_tapeValue _ _ _ (Pattern.derives_of_parse accepted))
  | blank accepted =>
    exact hword.2.append (LineRule.quotesSigns_blankValue _ _ _ (Pattern.derives_of_parse accepted))

/-- **No comment is cut out of a line that a rule accepts.** Such a line is kept whole, and if blanks and a
comment are added to it, all but the comment is kept. -/
theorem comment_is_never_cut_out_of_line {line : List Char} (h : IsRuleLine line) :
    stripComment line = line ∧
      ∀ blanks comment, blanks ≠ [] → (∀ c ∈ blanks, Text.isBlank c = true) →
        stripComment (line ++ blanks ++ '#' :: comment) = line ++ blanks := by
  refine ⟨h.signsQuoted.stripCommentFrom_eq true, fun blanks comment hne hblanks => ?_⟩
  obtain ⟨fresh, hrest⟩ := h.signsQuoted.exists_stripCommentFrom_append true
  rw [List.append_assoc, stripComment, hrest, stripCommentFrom_blanks_of_ne_nil hblanks hne]

/-- A quoted number sign, a quoted quote and a quoted space stand next to each other, on a tape and in a
transition. -/
theorem comment_is_never_cut_out_of_line_quotes :
    IsRuleLine "tape:'#',''',' ','#'".toList ∧ IsRuleLine "[''',' ']->['#',' '],[R,L],s.1".toList ∧
      stripComment "tape:'#',''',' ','#'".toList = "tape:'#',''',' ','#'".toList ∧
      stripComment "[''',' ']->['#',' '],[R,L],s.1\t # '#' '".toList =
        "[''',' ']->['#',' '],[R,L],s.1\t ".toList := by
  have htape : IsRuleLine ("tape:".toList ++ "'#',''',' ','#'".toList) :=
    @IsRuleLine.tape (fun _ => {}) _ _ (by rfl)
  have htransition : IsRuleLine "[''',' ']->['#',' '],[R,L],s.1".toList :=
    @IsRuleLine.transition (fun _ => {}) _ _ (by rfl)
  refine ⟨htape, htransition, (comment_is_never_cut_out_of_line htape).1, ?_⟩
  exact (comment_is_never_cut_out_of_line htransition).2 ['\t', ' '] " '#' '".toList (by decide)
    (List.all_eq_true.1 rfl)

end TapeLang
