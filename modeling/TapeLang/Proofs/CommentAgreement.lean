import Mathlib
import TapeLang.Proofs.Accounting
import TapeLang.Proofs.InlineRule
import TapeLang.Proofs.Suppression

/-!
# Only comments silence diagnostics

Suppression comments are searched for in physical lines, without regard to quotes. In a text that is
accepted this finds nothing but comments on the lines that matter for the states and transitions: on the
line of a state header or of a transition, and on the line before it.

* `Inline.quote_of_sign`, `length_codePart_le`: in an inline text every number sign is followed by a quote,
  which no suppression comment allows;
* `inline_codePart_of_rule`: what is kept of the lines that matter is inline;
* `only_comments_silence`: where suppression comments stand, and what they silence.
-/

namespace TapeLang

/-! ### Number signs in inline texts -/

/-- In an inline text a number sign is followed by the quote that closes its symbol. -/
theorem Inline.quote_of_sign {before after : List Char} (h : Inline (before ++ '#' :: after)) :
    ∃ rest, after = '\'' :: rest := by
  generalize hs : before ++ '#' :: after = s at h
  induction h generalizing before with
  | nil => simp at hs
  | @plain c t sign _ _ ih =>
    cases before with
    | nil =>
      obtain rfl : '#' = c := (List.cons.inj hs).1
      exact absurd sign (by decide)
    | cons b before => exact ih (List.cons.inj hs).2
  | @quoted c t _ _ ih =>
    -- the number sign is not one of the two quotes
    rcases before with - | ⟨b₁, - | ⟨b₂, - | ⟨b₃, before⟩⟩⟩ <;>
      simp only [List.cons_append, List.nil_append, List.cons.injEq] at hs
    · exact absurd hs.1 (by decide)
    · exact ⟨t, hs.2.2⟩
    · exact absurd hs.2.2.1 (by decide)
    · exact ih hs.2.2.2

/-- No suppression comment begins with a quote behind its number sign. -/
theorem idsAfterSign?_quote (rest : List Char) : idsAfterSign? ('\'' :: rest) = none := rfl

/-- Where a suppression comment begins, an inline text in front has ended. -/
theorem length_codePart_le {raw before after : List Char} {ids : List (List Char)}
    (h : Inline (codePart raw)) (hraw : raw = before ++ '#' :: after)
    (hids : idsAfterSign? after = some ids) : (codePart raw).length ≤ before.length := by
  by_contra hlt
  have happend := (codePart_append_commentPart raw).trans hraw
  rcases List.append_eq_append_iff.1 happend with ⟨more, hbefore, -⟩ | ⟨more, hcode, hafter⟩
  · rw [hbefore, List.length_append] at hlt
    omega
  · cases more with
    | nil => rw [hcode, List.append_nil] at hlt; omega
    | cons sign more =>
      obtain ⟨rfl, rfl⟩ := List.cons.inj hafter
      rw [hcode] at h
      obtain ⟨rest, rfl⟩ := h.quote_of_sign
      exact absurd ((idsAfterSign?_quote (rest ++ commentPart raw)).symm.trans hids) (by simp)

/-- An inline text in front does not matter to the search for a suppression comment. -/
theorem Inline.directiveIds?_append {s : List Char} (h : Inline s) (rest : List Char) :
    directiveIds? (s ++ rest) = directiveIds? rest := by
  induction h with
  | nil => rfl
  | @plain c t sign _ _ ih =>
    have hc : c ≠ '#' := fun hc => sign (by simp [hc])
    rw [List.cons_append, directiveIds?, if_neg hc, ih]
  | @quoted c t _ _ ih =>
    have hquote : '\'' ≠ '#' := by decide
    have hids : (if c = '#' then idsAfterSign? ('\'' :: (t ++ rest)) else none) = none := by
      rw [idsAfterSign?_quote, ite_self]
    simp only [List.cons_append, directiveIds?, if_neg hquote, hids, ih]

/-! ### The lines of a block of rules -/

/-- A line is inline up to its comment if its content is. -/
theorem inline_codePart {raw : List Char} (hbreak : ∀ c ∈ raw, Text.isLineBreak c = false)
    (h : Inline (Text.trimEnd (stripComment (splitIndent raw).2))) : Inline (codePart raw) := by
  have hcode : ∀ c ∈ codePart raw, Text.isLineBreak c = false := fun c hc =>
    hbreak c (by rw [← codePart_append_commentPart raw]; exact List.mem_append_left _ hc)
  have hspaces : ∀ {cs : List Char}, cs <:+: codePart raw → (∀ c ∈ cs, Text.isSpace c = true) →
      Inline cs := by
    intro cs hcs hspace
    exact .of_forall fun c hc => ⟨Text.sign_of_isSpace (hspace c hc), hcode c (hcs.mem hc)⟩
  obtain ⟨spaces, hspace, hstrip⟩ := Text.exists_trimEnd_append (stripComment (splitIndent raw).2)
  have hpart : codePart raw = (splitIndent raw).1 ++
      (Text.trimEnd (stripComment (splitIndent raw).2) ++ spaces) := by rw [← hstrip]; rfl
  have hindent : Inline (splitIndent raw).1 := by
    refine hspaces (by rw [hpart]; exact (List.prefix_append _ _).isInfix) fun c hc => ?_
    exact Text.isSpace_of_isBlank (List.mem_takeWhile_imp hc)
  have hrest : Inline spaces := by
    refine hspaces ?_ hspace
    rw [hpart, ← List.append_assoc]
    exact (List.suffix_append _ _).isInfix
  rw [hpart]
  exact hindent.append (h.append hrest)

theorem Text.isSpace_or_mem_trim {t : List Char} {c : Char} (h : c ∈ t) :
    isSpace c = true ∨ c ∈ trim t := by
  rw [← List.takeWhile_append_dropWhile (p := isSpace) (l := t), List.mem_append] at h
  rcases h with h | h
  · exact .inl (List.mem_takeWhile_imp h)
  · obtain ⟨spaces, hspaces, heq⟩ := exists_trimEnd_append (t.dropWhile isSpace)
    rw [heq, List.mem_append] at h
    rcases h with h | h
    · exact .inr h
    · exact .inl (hspaces c h)

/-- A line with a directive and nothing behind its colon is inline. -/
theorem Line.Announces.inline_content {line : Line} {d : Directive} {offset : Nat} {rest : List Char}
    (h : line.Announces d offset rest) (hbare : Text.trim rest = [])
    (hbreak : ∀ c ∈ line.content, Text.isLineBreak c = false) : Inline line.content := by
  obtain ⟨key, hcontent, -, hword, -⟩ := h
  have hkey : Text.trim key = d.text.toList := by
    have htext : d.text = String.ofList (Text.trim key) := by simpa using List.find?_some hword
    rw [htext, String.toList_ofList]
  have hword : ∀ c ∈ d.text.toList, c ∉ ['\'', '#'] := by
    have hall : (d.text.toList.all fun c => c != '\'' && c != '#') = true := by cases d <;> rfl
    simpa using hall
  refine .of_forall fun c hc => ⟨?_, hbreak c hc⟩
  rw [hcontent, List.mem_append, List.mem_cons] at hc
  rcases hc with hc | rfl | hc
  · rcases Text.isSpace_or_mem_trim hc with hc | hc
    · exact Text.sign_of_isSpace hc
    · exact hword c (hkey ▸ hc)
  · decide
  · rcases Text.isSpace_or_mem_trim hc with hc | hc
    · exact Text.sign_of_isSpace hc
    · rw [hbare] at hc
      cases hc

/-- The lines below it are inline. -/
theorem ReadsRule.inline_content {file : String} {line : Line} {rule : Rule}
    (h : ReadsRule file line rule) (hbreak : ∀ c ∈ line.content, Text.isLineBreak c = false) :
    Inline line.content := by
  cases h with
  | header value => exact LineRule.isInline_stateHeader _ _ _ (Pattern.derives_of_parse value) hbreak
  | transition value =>
    exact LineRule.isInline_transition _ _ _ (Pattern.derives_of_parse value.1) hbreak

/-- In a text that is accepted the states come from an uninterrupted block of inline lines: the line that
opens it, and one line for each rule. -/
theorem exists_rules_block {text : List Char} {file : String} {tree : Ast.Program}
    (h : parse text file = .ok tree) :
    ∃ (above below : List Line) (header : Line) (body : List Line),
      scanLines text = above ++ ((header :: body) ++ below) ∧
      List.Forall₂ (ReadsRule file) body (tree.states.flatMap Ast.State.rules) ∧
      ∀ line ∈ header :: body, (∀ c ∈ line.content, Text.isLineBreak c = false) →
        Inline line.content := by
  have hsize := (parse_eq_ok_iff.1 h).1
  rw [parse_eq_readLines hsize] at h
  obtain ⟨sections, parts, hlines, hreads, -, hhas, -⟩ := readLines_eq_ok_iff.1 h
  have hpart : Part.rules tree.states ∈ parts := (hhas (.rules tree.states)).1 rfl
  obtain ⟨s, hs, hread⟩ := exists_of_forall₂_of_mem hreads hpart
  obtain ⟨before, after, rfl⟩ := List.append_of_mem hs
  refine ⟨before.flatMap Section.lines, after.flatMap Section.lines, s.header, s.body, ?_, ?_⟩
  · rw [hlines, List.flatMap_append, List.flatMap_cons]
    rfl
  · cases hread with
    | line announces declared _ => cases declared
    | rules announces bare body value reads =>
      have hrules := reads.forall₂_rules_cons value
      rw [← body] at hrules
      refine ⟨hrules, List.forall_mem_cons.2 ⟨announces.inline_content bare, fun line hline => ?_⟩⟩
      obtain ⟨rule, -, hrule⟩ := exists_of_forall₂_of_mem hrules.flip hline
      exact hrule.inline_content

/-- **What is kept of the line of a rule, and of the line before it, is inline.** The line before holds
nothing, or it belongs to the block too. -/
theorem inline_codePart_of_rule {text : List Char} {file : String} {tree : Ast.Program}
    (h : parse text file = .ok tree) {rule : Rule}
    (hrule : rule ∈ tree.states.flatMap Ast.State.rules) {m : Nat}
    (hm : rule.line = m ∨ rule.line = m + 1) {raw : List Char} (hraw : Text.line? text m = some raw) :
    Inline (codePart raw) := by
  have hbreak := Text.isLineBreak_of_line? hraw
  refine inline_codePart hbreak ?_
  cases hline : Line.ofRaw? m raw with
  | none =>
    rw [Line.trimEnd_of_ofRaw?_eq_none hline]
    exact .nil
  | some line =>
    obtain ⟨above, below, header, body, hlines, hrules, hinline⟩ := exists_rules_block h
    obtain ⟨own, hown, hreads⟩ := exists_of_forall₂_of_mem hrules hrule
    have hnumber : line.number = m := Line.number_of_ofRaw? hline
    have hown' : rule.line = own.number := hreads.line_eq
    have hmem : line ∈ scanLines text :=
      mem_scanLines.2 ⟨raw, by rw [hnumber]; exact hraw, by rw [hnumber]; exact hline⟩
    have horder := pairwise_scanLines text
    rw [hlines] at hmem horder
    obtain ⟨-, hblock, habove⟩ := List.pairwise_append.1 horder
    obtain ⟨hblock, -, hbelow⟩ := List.pairwise_append.1 hblock
    have hheader : header.number < own.number := (List.pairwise_cons.1 hblock).1 own hown
    -- the numbers leave no room outside the block
    have hmem' : line ∈ header :: body := by
      rcases List.mem_append.1 hmem with hmem | hmem
      · have := habove line hmem header (by simp)
        omega
      · rcases List.mem_append.1 hmem with hmem | hmem
        · exact hmem
        · have := hbelow own (List.mem_cons_of_mem _ hown) line hmem
          omega
    rw [← Line.content_of_ofRaw? hline]
    exact hinline line hmem' fun c hc => hbreak c (Line.mem_raw_of_mem_content hline hc)

/-- **Only comments silence diagnostics.** Let a text be accepted, and let a rule of its tree, the header of
a state or a transition, stand on some line. Wherever a suppression comment is found on that line or on the
line before it, its number sign stands in the part that is cut off as a comment. Hence a diagnostic on that
line is silenced only everywhere, or by the comment of one of these two lines. -/
theorem only_comments_silence {text : List Char} {file : String} {tree : Ast.Program}
    (h : parse text file = .ok tree) {rule : Rule}
    (hrule : rule ∈ tree.states.flatMap Ast.State.rules) :
    (∀ (m : Nat) (raw before after : List Char) (ids : List (List Char)),
      (rule.line = m ∨ rule.line = m + 1) → Text.line? text m = some raw →
      raw = before ++ '#' :: after → idsAfterSign? after = some ids →
      (codePart raw).length ≤ before.length) ∧
    ∀ (suppress : List String) (d : Diagnostic) (l : Location), d.location = some l →
      l.line = rule.line →
      ((Suppressions.load { everywhere := suppress } text).covers d = true ↔
        (d.id ∈ suppress ∨ "*" ∈ suppress) ∨
          ∃ (m : Nat) (raw : List Char) (ids : List (List Char)),
            (rule.line = m ∨ rule.line = m + 1) ∧ Text.line? text m = some raw ∧
            directiveIds? (commentPart raw) = some ids ∧ d.id.toList ∈ ids) := by
  constructor
  · intro m raw before after ids hm hraw hsign hids
    exact length_codePart_le (inline_codePart_of_rule h hrule hm hraw) hsign hids
  · intro suppress d l hl hline
    have hcomment : ∀ (m : Nat) (raw : List Char), (rule.line = m ∨ rule.line = m + 1) →
        Text.line? text m = some raw → directiveIds? raw = directiveIds? (commentPart raw) := by
      intro m raw hm hraw
      conv_lhs => rw [← codePart_append_commentPart raw]
      exact (inline_codePart_of_rule h hrule hm hraw).directiveIds?_append _
    rw [Suppressions.covers_load hl, hline]
    refine or_congr_right ⟨?_, ?_⟩
    · rintro ⟨m, raw, ids, hm, hraw, hids, hid⟩
      exact ⟨m, raw, ids, hm, hraw, by rwa [← hcomment m raw hm hraw], hid⟩
    · rintro ⟨m, raw, ids, hm, hraw, hids, hid⟩
      exact ⟨m, raw, ids, hm, hraw, by rwa [hcomment m raw hm hraw], hid⟩

/-- A transition that reads a quoted number sign, with a comment behind it. -/
def quotedSign : List Char :=
  "tape: '#'\nrules: # 's:\n  s:\n    '#', R, s # tur-suppress unreachable-state\n".toList

/-- The comment silences what it lists, and it begins behind the transition. -/
theorem only_comments_silence_quoted_sign :
    ∃ tree rule raw, parse quotedSign "m" = .ok tree ∧ rule ∈ tree.states.flatMap Ast.State.rules ∧
      rule.line = 4 ∧ Text.line? quotedSign 4 = some raw ∧
      (codePart raw).length ≤ "    '#', R, s ".length ∧
      (Suppressions.load {} quotedSign).covers
        ⟨"unreachable-state", "", .warning, some ⟨"m", 4, 5⟩, none, .empty⟩ = true := by
  have heval : (parse quotedSign "m").toOption.map (fun tree =>
      (tree.states.flatMap Ast.State.rules).map Rule.line) = some [3, 4] := by rfl
  obtain ⟨tree, htree, hlines⟩ := Option.map_eq_some_iff.1 heval
  have hparse := toOption_eq_some_iff.1 htree
  obtain ⟨rule, hrule, hline⟩ : ∃ rule ∈ tree.states.flatMap Ast.State.rules, rule.line = 4 := by
    rw [← List.mem_map, hlines]
    decide
  have hraw : Text.line? quotedSign 4 =
      some ("    '#', R, s ".toList ++ '#' :: " tur-suppress unreachable-state".toList) := by rfl
  have hids : idsAfterSign? " tur-suppress unreachable-state".toList =
      some ["unreachable-state".toList] := by rfl
  obtain ⟨hplace, hcovers⟩ := only_comments_silence hparse hrule
  refine ⟨tree, rule, _, hparse, hrule, hline, hraw, ?_, ?_⟩
  · exact hplace 4 _ _ _ _ (.inl hline) hraw rfl hids
  · have hcomment : directiveIds? (commentPart ("    '#', R, s ".toList ++
        '#' :: " tur-suppress unreachable-state".toList)) = some ["unreachable-state".toList] := by rfl
    exact (hcovers [] _ _ rfl hline.symm).2
      (.inr ⟨4, _, _, .inl hline, hraw, hcomment, List.mem_singleton_self _⟩)

end TapeLang
