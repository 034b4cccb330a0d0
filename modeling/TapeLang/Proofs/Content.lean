import Mathlib
import TapeLang.Source.LineRule
import TapeLang.Source.Line

/-!
# Texts that stand on a line unchanged

A text is cut into lines, and each line loses its comment and its trailing spaces. This file says for
which texts nothing is lost.

* `Text.splitLines_flatMap`: lines that are joined by line feeds are found again;
* `SignsQuoted`: texts in which every quote and every number sign belongs to a quoted symbol, so that no
  comment begins;
* `Inline`: such texts without a line break;
* `IsContent`, `scanFrom_cons`: what is the content of a logical line.
-/

namespace TapeLang

namespace Text

/-! ### Physical lines -/

theorem linesFrom_append {line : List Char} (h : ∀ c ∈ line, isLineBreak c = false)
    (current rest : List Char) :
    linesFrom current (line ++ '\n' :: rest) = (current.reverse ++ line) :: linesFrom [] rest := by
  induction line generalizing current with
  | nil =>
    rw [List.nil_append, List.append_nil, linesFrom]
    · rfl
    · intro _ hc
      exact absurd hc (by decide)
  | cons c line ih =>
    rw [List.forall_mem_cons] at h
    rw [List.cons_append, linesFrom, h.1]
    · rw [if_neg Bool.false_ne_true, ih h.2]
      simp
    · rintro _ rfl
      exact absurd h.1 (by decide)

/-- Lines that end with line feeds are cut apart again. -/
theorem splitLines_flatMap {lines : List (List Char)}
    (h : ∀ line ∈ lines, ∀ c ∈ line, isLineBreak c = false) :
    splitLines (lines.flatMap (· ++ ['\n'])) = lines := by
  unfold splitLines
  induction lines with
  | nil => rfl
  | cons line lines ih =>
    rw [List.forall_mem_cons] at h
    rw [List.flatMap_cons, List.append_assoc, List.singleton_append, linesFrom_append h.1, ih h.2]
    rfl

/-! ### Classes of characters -/

/-- A text of length one is a character. -/
theorem exists_singleton {s : String} (h : s.length = 1) : ∃ c, s = String.singleton c := by
  obtain ⟨c, hc⟩ := List.length_eq_one_iff.1 (String.length_toList.trans h)
  refine ⟨c, ?_⟩
  rw [← String.ofList_toList (s := s), hc]
  rfl

theorem isLineBreak_of_isBlank {c : Char} (h : isBlank c = true) : isLineBreak c = false := by
  simp only [isBlank, Bool.or_eq_true, beq_iff_eq] at h
  rcases h with rfl | rfl <;> rfl

theorem isLineBreak_of_isSpace_eq_false {c : Char} (h : isSpace c = false) :
    isLineBreak c = false := by
  simp only [isSpace, isWhite, isLineBreak, Bool.or_eq_false_iff, Bool.and_eq_false_iff,
    decide_eq_false_iff_not, beq_eq_false_iff_ne] at h ⊢
  omega

theorem isBlank_of_isSpace_eq_false {c : Char} (h : isSpace c = false) : isBlank c = false := by
  simp only [isBlank, Bool.or_eq_false_iff, beq_eq_false_iff_ne]
  constructor
  · rintro rfl
    exact absurd h (by decide)
  · rintro rfl
    exact absurd h (by decide)

theorem isSpace_of_isBlank {c : Char} (h : isBlank c = true) : isSpace c = true := by
  by_contra hspace
  rw [Bool.not_eq_true] at hspace
  rw [isBlank_of_isSpace_eq_false hspace] at h
  cases h

/-- The code points of the spaces. -/
def spaceCodes : List Nat :=
  [0x09, 0x0A, 0x0B, 0x0C, 0x0D, 0x1C, 0x1D, 0x1E, 0x1F, 0x20, 0x85, 0xA0, 0x1680, 0x2000, 0x2001,
   0x2002, 0x2003, 0x2004, 0x2005, 0x2006, 0x2007, 0x2008, 0x2009, 0x200A, 0x2028, 0x2029, 0x202F,
   0x205F, 0x3000]

theorem mem_spaceCodes {c : Char} (h : isSpace c = true) : c.toNat ∈ spaceCodes := by
  simp only [isSpace, isWhite, Bool.or_eq_true, Bool.and_eq_true, decide_eq_true_eq,
    beq_iff_eq] at h
  simp only [spaceCodes, List.mem_cons, List.not_mem_nil, or_false]
  omega

/-- The classes of name characters that are given by ranges. -/
def nameRanges : List Ranges :=
  [letterRanges, connectorRanges, markRanges, letterNumberRanges, enclosedLetterRanges,
   laterNameRanges, newScriptRanges]

set_option maxRecDepth 10000 in
theorem contains_spaceCodes : ∀ n ∈ spaceCodes, ∀ r ∈ nameRanges, r.contains n = false := by
  decide +kernel

set_option maxRecDepth 10000 in
theorem digit_spaceCodes :
    ∀ n ∈ spaceCodes, ∀ z ∈ zeros ++ laterZeros, (z ≤ n && n < z + 10) = false := by
  decide +kernel

theorem isDecimal_eq_false {c : Char} (h : c.toNat ∈ spaceCodes) : isDecimal c = false := by
  have hzero := digit_spaceCodes c.toNat h
  rw [List.forall_mem_append] at hzero
  have hdigit : isDigit c = false := by
    rw [isDigit, digitValue?, List.find?_eq_none.2 (by simpa using hzero.1)]
    rfl
  rw [isDecimal, hdigit, Bool.false_or, List.any_eq_false]
  simpa using hzero.2

/-- No space belongs to a name. -/
theorem isNameChar_eq_false {c : Char} (h : c.toNat ∈ spaceCodes) : isNameChar c = false := by
  have hranges := contains_spaceCodes c.toNat h
  have hjoiner : ∀ n ∈ spaceCodes, n ≠ 0x200C ∧ n ≠ 0x200D := by decide
  simp only [nameRanges, List.forall_mem_cons] at hranges
  obtain ⟨hletter, hconnector, hmark, hnumber, henclosed, hlater, hnew, -⟩ := hranges
  simp only [isNameChar, isLetter, isConnector, isMark, isLetterNumber, isJoiner, hletter, hconnector,
    hmark, hnumber, henclosed, hlater, hnew, isDecimal_eq_false h, Bool.or_false, Bool.false_or,
    Bool.or_eq_false_iff, beq_eq_false_iff_ne]
  exact hjoiner c.toNat h

theorem isNameTail_eq_false {c : Char} (h : c.toNat ∈ spaceCodes) :
    LineRule.isNameTail c = false := by
  have hsigns : '.'.toNat ∉ spaceCodes ∧ '-'.toNat ∉ spaceCodes := by decide
  simp only [LineRule.isNameTail, isNameChar_eq_false h, Bool.false_or, Bool.or_eq_false_iff,
    beq_eq_false_iff_ne]
  constructor
  · rintro rfl
    exact hsigns.1 h
  · rintro rfl
    exact hsigns.2 h

theorem isSpace_of_isNameTail {c : Char} (h : LineRule.isNameTail c = true) : isSpace c = false := by
  by_contra hspace
  rw [Bool.not_eq_false] at hspace
  rw [isNameTail_eq_false (mem_spaceCodes hspace)] at h
  cases h

/-- Nor do the signs that have a meaning on a line. -/
theorem sign_of_isNameTail {c : Char} (h : LineRule.isNameTail c = true) :
    c ∉ ['\'', '#', ':', ','] := by
  have hsigns : ∀ d ∈ ['\'', '#', ':', ','], LineRule.isNameTail d = false := by
    simp only [List.forall_mem_cons]
    exact ⟨rfl, rfl, rfl, rfl, by simp⟩
  intro hc
  rw [hsigns c hc] at h
  cases h

/-! ### Trimming -/

theorem dropWhile_eq_self {p : Char → Bool} {t : List Char} (h : ∀ c ∈ t.head?, p c = false) :
    t.dropWhile p = t := by
  cases t with
  | nil => rfl
  | cons c t => simp [h c rfl]

theorem trimEnd_eq_self {t : List Char} (h : ∀ c ∈ t.getLast?, isSpace c = false) :
    trimEnd t = t := by
  rw [← List.head?_reverse] at h
  rw [trimEnd, dropWhileEnd, dropWhile_eq_self h, List.reverse_reverse]

/-- A trimmed text does not end with a space. -/
theorem isSpace_getLast?_of_trim {t : List Char} (h : trim t = t) :
    ∀ c ∈ t.getLast?, isSpace c = false := by
  rw [← h]
  intro c hc
  rw [trim, dropEnds, dropWhileEnd, List.getLast?_reverse] at hc
  have hnot := List.head?_dropWhile_not isSpace ((t.dropWhile isSpace).reverse)
  rw [hc] at hnot
  simpa using hnot

end Text

/-! ### Comments -/

/-- A text in which every quote and every number sign belongs to a quoted symbol. -/
inductive SignsQuoted : List Char → Prop
  | nil : SignsQuoted []
  | plain {c : Char} {t : List Char} (sign : c ∉ ['\'', '#']) (tail : SignsQuoted t) : SignsQuoted (c :: t)
  | quoted {c : Char} {t : List Char} (tail : SignsQuoted t) : SignsQuoted ('\'' :: c :: '\'' :: t)

namespace SignsQuoted

variable {s t : List Char}

theorem append (hs : SignsQuoted s) (ht : SignsQuoted t) : SignsQuoted (s ++ t) := by
  induction hs with
  | nil => exact ht
  | plain sign _ ih => exact .plain sign ih
  | quoted _ ih => exact .quoted ih

theorem of_forall (h : ∀ c ∈ t, c ∉ ['\'', '#']) : SignsQuoted t := by
  induction t with
  | nil => exact .nil
  | cons c t ih =>
    rw [List.forall_mem_cons] at h
    exact .plain h.1 (ih h.2)

/-- **The search for a comment passes over the text and goes on behind it,** whatever comes there. -/
theorem exists_stripCommentFrom_append (h : SignsQuoted s) (fresh : Bool) :
    ∃ fresh', ∀ rest, stripCommentFrom fresh (s ++ rest) = s ++ stripCommentFrom fresh' rest := by
  -- one symbol or one other character at a time, so that the quotes are never taken in the wrong pairs
  induction h generalizing fresh with
  | nil => exact ⟨fresh, fun _ => rfl⟩
  | @plain c t sign _ ih =>
    obtain ⟨fresh', hrest⟩ := ih (Text.isBlank c)
    refine ⟨fresh', fun rest => ?_⟩
    simp only [List.mem_cons, List.not_mem_nil, or_false, not_or] at sign
    rw [List.cons_append, stripCommentFrom, if_neg fun h => sign.2 h.1, hrest, List.cons_append]
    rintro _ _ rfl
    exact absurd rfl sign.1
  | quoted _ ih =>
    obtain ⟨fresh', hrest⟩ := ih false
    exact ⟨fresh', fun rest => by simp only [List.cons_append, stripCommentFrom, hrest]⟩

theorem stripCommentFrom_eq (h : SignsQuoted s) (fresh : Bool) : stripCommentFrom fresh s = s := by
  obtain ⟨fresh', hrest⟩ := h.exists_stripCommentFrom_append fresh
  have hnothing := hrest []
  rwa [stripCommentFrom, List.append_nil] at hnothing

end SignsQuoted

/-- A text without a line break in which every quote and every number sign belongs to a quoted
symbol. -/
inductive Inline : List Char → Prop
  | nil : Inline []
  | plain {c : Char} {t : List Char} (sign : c ∉ ['\'', '#']) (inline : Text.isLineBreak c = false)
      (tail : Inline t) : Inline (c :: t)
  | quoted {c : Char} {t : List Char} (inline : Text.isLineBreak c = false) (tail : Inline t) :
      Inline ('\'' :: c :: '\'' :: t)

/-- Without a line break quoted signs are enough. -/
theorem SignsQuoted.inline {t : List Char} (h : SignsQuoted t)
    (hbreak : ∀ c ∈ t, Text.isLineBreak c = false) : Inline t := by
  induction h with
  | nil => exact .nil
  | plain sign _ ih =>
    rw [List.forall_mem_cons] at hbreak
    exact .plain sign hbreak.1 (ih hbreak.2)
  | quoted _ ih =>
    simp only [List.forall_mem_cons] at hbreak
    exact .quoted hbreak.2.1 (ih hbreak.2.2.2)

namespace Inline

variable {s t : List Char}

theorem isLineBreak_eq_false (h : Inline t) : ∀ c ∈ t, Text.isLineBreak c = false := by
  induction h with
  | nil => simp
  | plain _ inline _ ih => exact List.forall_mem_cons.2 ⟨inline, ih⟩
  | quoted inline _ ih =>
    have hquote : Text.isLineBreak '\'' = false := by decide
    simp only [List.forall_mem_cons]
    exact ⟨hquote, inline, hquote, ih⟩

theorem signsQuoted (h : Inline t) : SignsQuoted t := by
  induction h with
  | nil => exact .nil
  | plain sign _ _ ih => exact .plain sign ih
  | quoted _ _ ih => exact .quoted ih

theorem append (hs : Inline s) (ht : Inline t) : Inline (s ++ t) := by
  refine (hs.signsQuoted.append ht.signsQuoted).inline ?_
  exact List.forall_mem_append.2 ⟨hs.isLineBreak_eq_false, ht.isLineBreak_eq_false⟩

theorem of_forall (h : ∀ c ∈ t, c ∉ ['\'', '#'] ∧ Text.isLineBreak c = false) : Inline t :=
  (SignsQuoted.of_forall fun c hc => (h c hc).1).inline fun c hc => (h c hc).2

/-- For a given text the condition is checked by evaluation. -/
theorem of_all (h : (t.all fun c => c != '\'' && c != '#' && !Text.isLineBreak c) = true) : Inline t := by
  rw [List.all_eq_true] at h
  refine of_forall fun c hc => ?_
  simpa [and_assoc] using h c hc

theorem flatMap {α : Type} {xs : List α} {f : α → List Char} (h : ∀ x ∈ xs, Inline (f x)) :
    Inline (xs.flatMap f) := by
  induction xs with
  | nil => exact .nil
  | cons x xs ih =>
    rw [List.forall_mem_cons] at h
    exact h.1.append (ih h.2)

/-- No comment begins in such a text. -/
theorem stripCommentFrom_eq (h : Inline t) (fresh : Bool) : stripCommentFrom fresh t = t :=
  h.signsQuoted.stripCommentFrom_eq fresh

end Inline

/-! ### Logical lines -/

/-- A text that is the content of a line: it begins without a blank, ends without a space, and loses
nothing as a comment or to a line break. -/
structure IsContent (t : List Char) : Prop where
  ne_nil : t ≠ []
  start : ∀ c ∈ t.head?, Text.isBlank c = false
  stop : ∀ c ∈ t.getLast?, Text.isSpace c = false
  uncommented : stripComment t = t
  inline : ∀ c ∈ t, Text.isLineBreak c = false

theorem Inline.isContent {t : List Char} (h : Inline t) (hne : t ≠ [])
    (hstart : ∀ c ∈ t.head?, Text.isBlank c = false)
    (hstop : ∀ c ∈ t.getLast?, Text.isSpace c = false) : IsContent t :=
  ⟨hne, hstart, hstop, h.stripCommentFrom_eq true, h.isLineBreak_eq_false⟩

theorem IsContent.ofRaw? {t : List Char} (ht : IsContent t) {indent : Indent}
    (hindent : ∀ c ∈ indent, Text.isBlank c = true) (n : Nat) :
    Line.ofRaw? n (indent ++ t) = some ⟨n, indent, t, indent ++ t⟩ := by
  have htake : t.takeWhile Text.isBlank = [] := by
    cases t with
    | nil => rfl
    | cons c t => simp [ht.start c rfl]
  have hsplit : splitIndent (indent ++ t) = (indent, t) := by
    rw [splitIndent, List.takeWhile_append_of_pos hindent, List.dropWhile_append_of_pos hindent,
      Text.dropWhile_eq_self ht.start, htake, List.append_nil]
  have hempty : t.isEmpty = false := by simpa using ht.ne_nil
  simp only [Line.ofRaw?, hsplit, ht.uncommented, Text.trimEnd_eq_self ht.stop, hempty]
  rfl

/-- A physical line with a content is a logical line. -/
theorem IsContent.scanFrom_cons {t : List Char} (ht : IsContent t) {indent : Indent}
    (hindent : ∀ c ∈ indent, Text.isBlank c = true) (n : Nat) (raws : List (List Char)) :
    scanFrom n ((indent ++ t) :: raws) = ⟨n, indent, t, indent ++ t⟩ :: scanFrom (n + 1) raws := by
  rw [scanFrom, ht.ofRaw? hindent n]

end TapeLang
