import Mathlib
import TapeLang.Proofs.Comments

/-!
# Physical lines and their comments

The logical lines of a text stand on its physical lines, which are numbered from one.

* `Text.line?`: the physical line with a number; `Text.isLineBreak_of_line?`: it has no line break;
* `mem_scanLines`, `pairwise_scanLines`: the logical lines, in the order of their numbers;
* `codePart`, `commentPart`: what is kept of a physical line and what is cut off as a comment;
* `Line.code`: what a logical line has of its physical line.
-/

namespace TapeLang

namespace Text

/-- The physical line with a number, from one. -/
def line? (s : List Char) : Nat → Option (List Char)
  | 0 => none
  | i + 1 => (splitLines s)[i]?

theorem isLineBreak_of_mem_linesFrom {current s raw : List Char}
    (hcurrent : ∀ c ∈ current, isLineBreak c = false) (h : raw ∈ linesFrom current s) :
    ∀ c ∈ raw, isLineBreak c = false := by
  have hreverse : ∀ {cs : List Char}, (∀ c ∈ cs, isLineBreak c = false) →
      ∀ c ∈ cs.reverse, isLineBreak c = false := fun hcs c hc => hcs c (List.mem_reverse.1 hc)
  fun_induction linesFrom current s with
  | case1 => cases h
  | case2 current =>
    rw [List.mem_singleton.1 h]
    exact hreverse hcurrent
  | case3 current rest ih =>
    rcases List.mem_cons.1 h with rfl | h
    · exact hreverse hcurrent
    · exact ih (by simp) h
  | case4 current c rest _ _ ih =>
    rcases List.mem_cons.1 h with rfl | h
    · exact hreverse hcurrent
    · exact ih (by simp) h
  | case5 current c rest _ hc ih =>
    exact ih (List.forall_mem_cons.2 ⟨Bool.eq_false_of_not_eq_true hc, hcurrent⟩) h

theorem isLineBreak_of_line? {s raw : List Char} {m : Nat} (h : line? s m = some raw) :
    ∀ c ∈ raw, isLineBreak c = false := by
  cases m with
  | zero => cases h
  | succ i => exact isLineBreak_of_mem_linesFrom (by simp) (List.mem_of_getElem? h)

/-- No space is a sign that can stand before or in a comment. -/
theorem sign_of_isSpace {c : Char} (h : isSpace c = true) : c ∉ ['\'', '#'] := by
  intro hsign
  simp only [List.mem_cons, List.not_mem_nil, or_false] at hsign
  rcases hsign with rfl | rfl <;> exact absurd h (by decide)

theorem exists_trimEnd_append (s : List Char) :
    ∃ spaces, (∀ c ∈ spaces, isSpace c = true) ∧ s = trimEnd s ++ spaces := by
  refine ⟨(s.reverse.takeWhile isSpace).reverse, fun c hc => ?_, ?_⟩
  · exact List.mem_takeWhile_imp (List.mem_reverse.1 hc)
  · rw [trimEnd, dropWhileEnd, ← List.reverse_append, List.takeWhile_append_dropWhile,
      List.reverse_reverse]

end Text

/-! ### Logical lines -/

theorem mem_scanFrom {n : Nat} {raws : List (List Char)} {line : Line} :
    line ∈ scanFrom n raws ↔
      ∃ i raw, raws[i]? = some raw ∧ Line.ofRaw? (n + i) raw = some line := by
  induction raws generalizing n with
  | nil => simp [scanFrom]
  | cons raw raws ih =>
    rw [scanFrom_cons, List.mem_append, Option.mem_toList, ih]
    constructor
    · rintro (h | ⟨i, raw', hi, h⟩)
      · exact ⟨0, raw, rfl, h⟩
      · exact ⟨i + 1, raw', hi, by rwa [Nat.add_right_comm] at h⟩
    · rintro ⟨i, raw', hi, h⟩
      cases i with
      | zero =>
        cases hi
        exact .inl h
      | succ i => exact .inr ⟨i, raw', hi, by rwa [Nat.add_right_comm]⟩

namespace Line

variable {n : Nat} {raw : List Char} {line : Line}

theorem eq_of_ofRaw? (h : ofRaw? n raw = some line) :
    line = ⟨n, (splitIndent raw).1, Text.trimEnd (stripComment (splitIndent raw).2), raw⟩ := by
  rw [ofRaw?_eq] at h
  split at h
  · cases h
  · cases h; rfl

theorem number_of_ofRaw? (h : ofRaw? n raw = some line) : line.number = n := by rw [eq_of_ofRaw? h]

theorem content_of_ofRaw? (h : ofRaw? n raw = some line) :
    line.content = Text.trimEnd (stripComment (splitIndent raw).2) := by rw [eq_of_ofRaw? h]

theorem mem_raw_of_mem_content (h : ofRaw? n raw = some line) {c : Char} (hc : c ∈ line.content) :
    c ∈ raw := by
  obtain ⟨spaces, -, hstrip⟩ := Text.exists_trimEnd_append (stripComment (splitIndent raw).2)
  rw [content_of_ofRaw? h] at hc
  have hkept : c ∈ stripComment (splitIndent raw).2 := hstrip ▸ List.mem_append_left spaces hc
  exact (List.dropWhile_sublist _).mem (mem_of_mem_stripCommentFrom hkept)

theorem trimEnd_of_ofRaw?_eq_none (h : ofRaw? n raw = none) :
    Text.trimEnd (stripComment (splitIndent raw).2) = [] := by
  rw [ofRaw?_eq] at h
  split at h
  · next hempty => exact hempty
  · cases h

end Line

/-- A logical line stands on the physical line with its number. -/
theorem mem_scanLines {text : List Char} {line : Line} :
    line ∈ scanLines text ↔
      ∃ raw, Text.line? text line.number = some raw ∧ Line.ofRaw? line.number raw = some line := by
  rw [scanLines, mem_scanFrom]
  constructor
  · rintro ⟨i, raw, hi, h⟩
    have hnumber : line.number = i + 1 := (Line.number_of_ofRaw? h).trans (Nat.add_comm 1 i)
    exact ⟨raw, by rw [hnumber]; exact hi, by rwa [hnumber, Nat.add_comm i 1]⟩
  · rintro ⟨raw, hraw, h⟩
    cases hnumber : line.number with
    | zero => rw [hnumber] at hraw; cases hraw
    | succ i =>
      rw [hnumber] at hraw h
      exact ⟨i, raw, hraw, by rwa [Nat.add_comm 1 i]⟩

/-- The logical lines stand in the order of their numbers. -/
theorem pairwise_scanFrom (n : Nat) (raws : List (List Char)) :
    (scanFrom n raws).Pairwise fun a b => a.number < b.number := by
  induction raws generalizing n with
  | nil => exact .nil
  | cons raw raws ih =>
    rw [scanFrom_cons]
    cases h : Line.ofRaw? n raw with
    | none => exact ih (n + 1)
    | some line =>
      refine List.pairwise_cons.2 ⟨fun line' hline' => ?_, ih (n + 1)⟩
      obtain ⟨i, raw', -, h'⟩ := mem_scanFrom.1 hline'
      rw [Line.number_of_ofRaw? h, Line.number_of_ofRaw? h']
      omega

theorem pairwise_scanLines (text : List Char) :
    (scanLines text).Pairwise fun a b => a.number < b.number := pairwise_scanFrom 1 _

/-! ### What is kept and what is cut off -/

theorem isPrefix_stripCommentFrom (fresh : Bool) (s : List Char) : stripCommentFrom fresh s <+: s := by
  fun_induction stripCommentFrom fresh s with
  | case1 => exact List.prefix_refl []
  | case2 fresh c s ih => simpa using ih
  | case3 => exact List.nil_prefix
  | case4 fresh c s _ _ ih => simpa using ih

/-- A physical line up to the place where its comment is cut off. -/
def codePart (raw : List Char) : List Char :=
  (splitIndent raw).1 ++ stripComment (splitIndent raw).2

/-- What is cut off from a physical line as a comment. -/
def commentPart (raw : List Char) : List Char := raw.drop (codePart raw).length

theorem codePart_append_commentPart (raw : List Char) : codePart raw ++ commentPart raw = raw := by
  have hprefix : codePart raw <+: (splitIndent raw).1 ++ (splitIndent raw).2 :=
    (List.prefix_append_right_inj _).2 (isPrefix_stripCommentFrom true _)
  have hraw : (splitIndent raw).1 ++ (splitIndent raw).2 = raw := List.takeWhile_append_dropWhile
  rw [hraw] at hprefix
  exact List.prefix_iff_eq_append.1 hprefix

/-- The code of a logical line: its physical line up to the comment and the spaces before it. -/
def Line.code (line : Line) : List Char := line.indent ++ line.content

theorem Line.code_prefix {n : Nat} {raw : List Char} {line : Line} (h : Line.ofRaw? n raw = some line) :
    line.raw = raw ∧ line.code <+: raw := by
  obtain ⟨spaces, -, htrim⟩ := Text.exists_trimEnd_append (stripComment (splitIndent raw).2)
  have htrimmed : Text.trimEnd (stripComment (splitIndent raw).2) <+: stripComment (splitIndent raw).2 :=
    ⟨spaces, htrim.symm⟩
  have hcontent := htrimmed.trans (isPrefix_stripCommentFrom true _)
  rw [eq_of_ofRaw? h]
  refine ⟨rfl, ?_⟩
  calc (splitIndent raw).1 ++ Text.trimEnd (stripComment (splitIndent raw).2)
      <+: (splitIndent raw).1 ++ (splitIndent raw).2 := (List.prefix_append_right_inj _).2 hcontent
    _ = raw := List.takeWhile_append_dropWhile

end TapeLang
