import Mathlib
import TapeLang.Proofs.Content
import TapeLang.Proofs.Renumbering
import TapeLang.Proofs.Stage

/-!
# Comments and blank lines are transparent

A comment that is added to a line, however broken the line is, takes nothing from it and adds nothing to
it, and a line without contents only moves the lines below it.

* `joinLines`, `scanLines_joinLines`: lines joined by line feeds;
* `stripCommentFrom_append`, `Line.ofRaw?_append_comment`: a line with a comment added;
* `Line.bare?`, `map_renumber_scanFrom`: what is left of a line without its place;
* `IsSilent`: a line without contents;
* `Outcome.SameUpToPlaces`: outcomes that differ only in places;
* `comments_are_transparent`: what a comment and a silent line do to the outcome.
-/

namespace TapeLang

/-! ### Lines joined by line feeds -/

/-- Lines joined by line feeds. -/
def joinLines (lines : List (List Char)) : List Char := ['\n'].intercalate lines

theorem Text.linesFrom_inline {line : List Char} (h : ∀ c ∈ line, isLineBreak c = false)
    (current : List Char) :
    linesFrom current line = if current.reverse ++ line = [] then [] else [current.reverse ++ line] := by
  induction line generalizing current with
  | nil => cases current <;> simp [linesFrom]
  | cons c line ih =>
    rw [List.forall_mem_cons] at h
    rw [linesFrom, h.1, if_neg Bool.false_ne_true, ih h.2]
    · simp
    · rintro _ rfl
      exact absurd h.1 (by decide)

theorem scanFrom_cons (n : Nat) (raw : List Char) (raws : List (List Char)) :
    scanFrom n (raw :: raws) = (Line.ofRaw? n raw).toList ++ scanFrom (n + 1) raws := by
  rw [scanFrom]
  cases Line.ofRaw? n raw <;> rfl

/-- Joined lines are scanned one by one. An empty line at the end is not found again, but holds
nothing. -/
theorem scanFrom_splitLines_joinLines {lines : List (List Char)}
    (h : ∀ line ∈ lines, ∀ c ∈ line, Text.isLineBreak c = false) (n : Nat) :
    scanFrom n (Text.splitLines (joinLines lines)) = scanFrom n lines := by
  induction lines generalizing n with
  | nil => rfl
  | cons line lines ih =>
    rw [List.forall_mem_cons] at h
    cases lines with
    | nil =>
      rw [joinLines, List.intercalate_singleton, Text.splitLines, Text.linesFrom_inline h.1]
      split
      · next hempty =>
        obtain rfl : line = [] := by simpa using hempty
        rfl
      · rfl
    | cons line' lines =>
      have hjoin : joinLines (line :: line' :: lines) = line ++ '\n' :: joinLines (line' :: lines) := by
        simp [joinLines, List.intercalate]
      rw [hjoin, Text.splitLines, Text.linesFrom_append h.1, scanFrom_cons, scanFrom_cons]
      exact congrArg _ (ih h.2 (n + 1))

theorem scanLines_joinLines {lines : List (List Char)}
    (h : ∀ line ∈ lines, ∀ c ∈ line, Text.isLineBreak c = false) :
    scanLines (joinLines lines) = scanFrom 1 lines := scanFrom_splitLines_joinLines h 1

/-! ### Lines without contents -/

/-- The line is blank, or it holds a comment only. -/
def IsSilent (raw : List Char) : Prop :=
  (∀ c ∈ raw, Text.isSpace c = true) ∨
    ∃ blanks comment, (∀ c ∈ blanks, Text.isBlank c = true) ∧ raw = blanks ++ '#' :: comment

theorem Text.trimEnd_append {rest : List Char} (hrest : ∀ c ∈ rest, isSpace c = true)
    (s : List Char) : trimEnd (s ++ rest) = trimEnd s := by
  have hspace : ∀ c ∈ rest.reverse, isSpace c = true := fun c hc => hrest c (List.mem_reverse.1 hc)
  rw [trimEnd, trimEnd, dropWhileEnd, dropWhileEnd, List.reverse_append,
    List.dropWhile_append_of_pos hspace]

theorem mem_of_mem_stripCommentFrom {fresh : Bool} {s : List Char} {c : Char}
    (h : c ∈ stripCommentFrom fresh s) : c ∈ s := by
  fun_induction stripCommentFrom fresh s with
  | case1 => exact h
  | case2 fresh x s ih =>
    simp only [List.mem_cons] at h ⊢
    exact h.imp_right (.imp_right (.imp_right ih))
  | case3 => cases h
  | case4 fresh x s _ _ ih =>
    rw [List.mem_cons] at h ⊢
    exact h.imp_right ih

theorem Line.ofRaw?_eq (n : Nat) (raw : List Char) :
    Line.ofRaw? n raw =
      if Text.trimEnd (stripComment (raw.dropWhile Text.isBlank)) = [] then none
      else some ⟨n, raw.takeWhile Text.isBlank,
        Text.trimEnd (stripComment (raw.dropWhile Text.isBlank)), raw⟩ := by
  simp only [Line.ofRaw?, splitIndent, List.isEmpty_iff]

/-- Text behind a line that is not blank does not change its indentation. -/
theorem splitIndent_append {raw : List Char} (h : ¬∀ c ∈ raw, Text.isBlank c = true)
    (tail : List Char) :
    (raw ++ tail).takeWhile Text.isBlank = raw.takeWhile Text.isBlank ∧
      (raw ++ tail).dropWhile Text.isBlank = raw.dropWhile Text.isBlank ++ tail := by
  induction raw with
  | nil => simp at h
  | cons c raw ih =>
    by_cases hc : Text.isBlank c = true
    · have hraw : ¬∀ c ∈ raw, Text.isBlank c = true := fun hraw =>
        h (List.forall_mem_cons.2 ⟨hc, hraw⟩)
      simp [hc, ih hraw]
    · simp [hc]

/-- Such a line is no logical line. -/
theorem IsSilent.ofRaw?_eq_none {raw : List Char} (h : IsSilent raw) (n : Nat) :
    Line.ofRaw? n raw = none := by
  rw [Line.ofRaw?_eq]
  refine if_pos ?_
  rcases h with h | ⟨blanks, comment, hblanks, rfl⟩
  · have hspace : ∀ c ∈ stripComment (raw.dropWhile Text.isBlank), Text.isSpace c = true := fun c hc =>
      h c ((List.dropWhile_sublist _).mem (mem_of_mem_stripCommentFrom hc))
    exact Text.trimEnd_append hspace []
  · have hdrop : (blanks ++ '#' :: comment).dropWhile Text.isBlank = '#' :: comment := by
      rw [List.dropWhile_append_of_pos hblanks]
      exact Text.dropWhile_eq_self (by rintro c ⟨⟩; rfl)
    rw [hdrop]
    simp [stripComment, stripCommentFrom, Text.trimEnd, Text.dropWhileEnd]

/-! ### A comment at the end of a line -/

section Comment

variable {blanks : List Char} (hblanks : ∀ c ∈ blanks, Text.isBlank c = true)
include hblanks

theorem ne_sign_of_isBlank {b : Char} (h : b ∈ blanks) : b ≠ '#' ∧ b ≠ '\'' := by
  constructor <;> rintro rfl <;> exact absurd (hblanks _ h) (by decide)

theorem stripCommentFrom_blanks (comment : List Char) :
    stripCommentFrom true (blanks ++ '#' :: comment) = blanks := by
  induction blanks with
  | nil => simp [stripCommentFrom]
  | cons b blanks ih =>
    have hsign := ne_sign_of_isBlank hblanks List.mem_cons_self
    rw [List.forall_mem_cons] at hblanks
    rw [List.cons_append, stripCommentFrom, if_neg fun h => hsign.1 h.1, hblanks.1, ih hblanks.2]
    rintro _ _ rfl
    exact absurd rfl hsign.2

/-- Behind a blank it does not matter whether a number sign would have started a comment before it. -/
theorem stripCommentFrom_blanks_of_ne_nil (hne : blanks ≠ []) (comment : List Char) (fresh : Bool) :
    stripCommentFrom fresh (blanks ++ '#' :: comment) = blanks := by
  obtain ⟨b, blanks, rfl⟩ := List.exists_cons_of_ne_nil hne
  have hsign := ne_sign_of_isBlank hblanks List.mem_cons_self
  rw [List.forall_mem_cons] at hblanks
  rw [List.cons_append, stripCommentFrom, if_neg fun h => hsign.1 h.1, hblanks.1,
    stripCommentFrom_blanks hblanks.2]
  rintro _ _ rfl
  exact absurd rfl hsign.2

/-- A quote does not find its partner in a comment behind blanks, since only blanks and the number sign
are near enough. -/
theorem exists_quote_of_append (hne : blanks ≠ []) {comment s rest : List Char} {c : Char}
    (h : s ++ (blanks ++ '#' :: comment) = c :: '\'' :: rest) : ∃ rest', s = c :: '\'' :: rest' := by
  obtain ⟨b, blanks, rfl⟩ := List.exists_cons_of_ne_nil hne
  rcases s with - | ⟨x, - | ⟨y, s⟩⟩
  · rcases blanks with - | ⟨b', blanks⟩
    · simp at h
    · have hsign := ne_sign_of_isBlank hblanks (List.mem_cons_of_mem b List.mem_cons_self)
      simp [hsign.2] at h
  · have hsign := ne_sign_of_isBlank hblanks List.mem_cons_self
    simp [hsign.2] at h
  · simp only [List.cons_append, List.cons.injEq] at h
    exact ⟨s, by rw [h.1, h.2.1]⟩

/-- **A comment that is added behind blanks is cut off again,** with some of the blanks at most. -/
theorem stripCommentFrom_append (hne : blanks ≠ []) (comment : List Char) (fresh : Bool)
    (s : List Char) :
    ∃ rest, (∀ c ∈ rest, Text.isBlank c = true) ∧
      stripCommentFrom fresh (s ++ (blanks ++ '#' :: comment)) = stripCommentFrom fresh s ++ rest := by
  fun_induction stripCommentFrom fresh s with
  | case1 fresh =>
    refine ⟨blanks, hblanks, ?_⟩
    rw [List.nil_append, List.nil_append, stripCommentFrom_blanks_of_ne_nil hblanks hne]
  | case2 fresh c s ih =>
    obtain ⟨rest, hrest, heq⟩ := ih
    refine ⟨rest, hrest, ?_⟩
    simp only [List.cons_append, stripCommentFrom, heq]
  | case3 fresh c s hquote hcomment =>
    refine ⟨[], by simp, ?_⟩
    rw [hcomment.1, hcomment.2]
    simp [stripCommentFrom]
  | case4 fresh c s hquote hcomment ih =>
    obtain ⟨rest, hrest, heq⟩ := ih
    refine ⟨rest, hrest, ?_⟩
    rw [List.cons_append, stripCommentFrom, if_neg hcomment, heq]
    · rfl
    · intro x t hc ht
      obtain ⟨t', ht'⟩ := exists_quote_of_append hblanks hne ht
      exact hquote x t' hc ht'

/-- **A line with a comment added is the same logical line,** if it is one. -/
theorem Line.ofRaw?_append_comment (hne : blanks ≠ []) (comment : List Char) (ν : Nat → Nat) (n : Nat)
    (raw : List Char) :
    (Line.ofRaw? n (raw ++ (blanks ++ '#' :: comment))).map (Line.renumber ν) =
      (Line.ofRaw? n raw).map (Line.renumber ν) := by
  by_cases hraw : ∀ c ∈ raw, Text.isBlank c = true
  · -- the indentation takes the added blanks too, but nothing stands behind it
    have hsilent : IsSilent (raw ++ (blanks ++ '#' :: comment)) :=
      .inr ⟨raw ++ blanks, comment, List.forall_mem_append.2 ⟨hraw, hblanks⟩, by simp⟩
    have hsilent' : IsSilent raw := .inl fun c hc => Text.isSpace_of_isBlank (hraw c hc)
    rw [hsilent.ofRaw?_eq_none, hsilent'.ofRaw?_eq_none]
  · obtain ⟨htake, hdrop⟩ := splitIndent_append hraw (blanks ++ '#' :: comment)
    obtain ⟨rest, hrest, hstrip⟩ :=
      stripCommentFrom_append hblanks hne comment true (raw.dropWhile Text.isBlank)
    have hcontent : Text.trimEnd (stripComment (raw.dropWhile Text.isBlank ++
        (blanks ++ '#' :: comment))) = Text.trimEnd (stripComment (raw.dropWhile Text.isBlank)) := by
      rw [stripComment, hstrip, Text.trimEnd_append fun c hc => Text.isSpace_of_isBlank (hrest c hc)]
      rfl
    rw [Line.ofRaw?_eq, Line.ofRaw?_eq, htake, hdrop, hcontent]
    split <;> rfl

end Comment

/-! ### Outcomes -/

/-- The error without the physical line on which it stands. -/
def ReadError.unquoted : ReadError → ReadError
  | .refused e => .refused { e with snippet := [] }
  | e => e

theorem Outcome.renumber_id (x : Except ReadError Ast.Program) :
    Outcome.renumber id (Ast.Program.relocate (Location.renumber id)) x =
      x.mapError ReadError.unquoted := by
  rw [Location.renumber_id]
  rcases x with (e | _ | _) | tree
  · simp [Outcome.renumber, ReadError.renumber, SourceError.renumber, Violation.renumber_id,
      renumberInt_id, Except.mapError, ReadError.unquoted]
  · rfl
  · rfl
  · simp [Outcome.renumber, Ast.Program.relocate_id, Except.mapError]

/-- Texts that are refused for causes with the same code, or not read for the same other reason. -/
def ReadError.SameCode : ReadError → ReadError → Prop
  | .refused e, .refused e' => e.violation.code = e'.violation.code
  | e, e' => e = e'

/-- Trees that are equal without their locations, or errors with the same code. -/
def Outcome.SameUpToPlaces : Except ReadError Ast.Program → Except ReadError Ast.Program → Prop
  | .ok tree, .ok tree' => tree.unlocated = tree'.unlocated
  | .error e, .error e' => e.SameCode e'
  | _, _ => False

theorem ReadError.sameCode_of_renumber {ν : Nat → Nat} {e e' : ReadError}
    (h : e.renumber ν = e'.renumber ν) : e.SameCode e' := by
  cases e with
  | refused e =>
    cases e' with
    | refused e' =>
      have hcode := congrArg (fun s : SourceError => s.violation.code) (ReadError.refused.inj h)
      show e.violation.code = e'.violation.code
      simpa only [SourceError.renumber, Violation.code_renumber] using hcode
    | badNumeral => cases h
    | homeless => cases h
  | badNumeral ds =>
    cases e' with
    | refused => cases h
    | badNumeral => exact h
    | homeless => cases h
  | homeless =>
    cases e' with
    | refused => cases h
    | badNumeral => cases h
    | homeless => rfl

theorem Outcome.sameUpToPlaces_of_renumber {ν : Nat → Nat} {x y : Except ReadError Ast.Program}
    (h : Outcome.renumber ν (Ast.Program.relocate (Location.renumber ν)) x =
      Outcome.renumber ν (Ast.Program.relocate (Location.renumber ν)) y) :
    Outcome.SameUpToPlaces x y := by
  rcases x with e | tree <;> rcases y with e' | tree'
  · exact ReadError.sameCode_of_renumber (Except.error.inj h)
  · cases h
  · cases h
  · have htree := congrArg Ast.Program.unlocated (Except.ok.inj h)
    rwa [Ast.Program.unlocated_relocate, Ast.Program.unlocated_relocate] at htree

/-! ### Lines without their places -/

/-- The logical line on a physical line, without its place. -/
def Line.bare? (raw : List Char) : Option Line := (Line.ofRaw? 1 raw).map (Line.renumber fun _ => 1)

theorem Line.map_renumber_ofRaw? (n : Nat) (raw : List Char) :
    (Line.ofRaw? n raw).map (Line.renumber fun _ => 1) = Line.bare? raw := by
  rw [Line.bare?, Line.ofRaw?_eq, Line.ofRaw?_eq]
  split <;> rfl

/-- Without their places, the logical lines do not depend on what stands above them. -/
theorem map_renumber_scanFrom (n : Nat) (raws : List (List Char)) :
    (scanFrom n raws).map (Line.renumber fun _ => 1) = raws.filterMap Line.bare? := by
  induction raws generalizing n with
  | nil => rfl
  | cons raw raws ih =>
    have hraw := Line.map_renumber_ofRaw? n raw
    rw [scanFrom_cons, List.map_append, ih, List.filterMap_cons, ← hraw]
    cases Line.ofRaw? n raw <;> rfl

/-- **Comments and blank lines are transparent.** To append blanks and a comment to a line leaves the
outcome as it is, up to the physical line that an error shows. To insert a blank line or a line with a
comment leaves it as it is up to the places. -/
theorem comments_are_transparent (pre post : List (List Char)) (file : String)
    (hpre : ∀ line ∈ pre, ∀ c ∈ line, Text.isLineBreak c = false)
    (hpost : ∀ line ∈ post, ∀ c ∈ line, Text.isLineBreak c = false) :
    (∀ line blanks comment, (∀ c ∈ line, Text.isLineBreak c = false) →
      blanks ≠ [] → (∀ c ∈ blanks, Text.isBlank c = true) →
      (∀ c ∈ comment, Text.isLineBreak c = false) →
      (joinLines (pre ++ line :: post)).length ≤ maxProgramSize →
      (joinLines (pre ++ (line ++ (blanks ++ '#' :: comment)) :: post)).length ≤ maxProgramSize →
      (parse (joinLines (pre ++ (line ++ (blanks ++ '#' :: comment)) :: post)) file).mapError
          ReadError.unquoted =
        (parse (joinLines (pre ++ line :: post)) file).mapError ReadError.unquoted) ∧
    ∀ extra, IsSilent extra → (∀ c ∈ extra, Text.isLineBreak c = false) →
      (joinLines (pre ++ post)).length ≤ maxProgramSize →
      (joinLines (pre ++ extra :: post)).length ≤ maxProgramSize →
      Outcome.SameUpToPlaces (parse (joinLines (pre ++ extra :: post)) file)
        (parse (joinLines (pre ++ post)) file) := by
  have hinline : ∀ line, (∀ c ∈ line, Text.isLineBreak c = false) →
      ∀ l ∈ pre ++ line :: post, ∀ c ∈ l, Text.isLineBreak c = false := fun line hline =>
    List.forall_mem_append.2 ⟨hpre, List.forall_mem_cons.2 ⟨hline, hpost⟩⟩
  constructor
  · intro line blanks comment hline hne hblanks hcomment hsize hsize'
    have hlong : ∀ c ∈ line ++ (blanks ++ '#' :: comment), Text.isLineBreak c = false := by
      simp only [List.forall_mem_append, List.forall_mem_cons]
      exact ⟨hline, fun c hc => Text.isLineBreak_of_isBlank (hblanks c hc), by decide, hcomment⟩
    rw [parse_eq_readLines hsize, parse_eq_readLines hsize', ← Outcome.renumber_id,
      ← Outcome.renumber_id]
    refine readLines_congr rfl file ?_
    rw [scanLines_joinLines (hinline _ hlong), scanLines_joinLines (hinline _ hline), scanFrom_append,
      scanFrom_append, scanFrom_cons, scanFrom_cons]
    simp only [List.map_append, ← Option.toList_map,
      Line.ofRaw?_append_comment hblanks hne comment id]
  · intro extra hsilent hextra hsize hsize'
    rw [parse_eq_readLines hsize, parse_eq_readLines hsize']
    refine Outcome.sameUpToPlaces_of_renumber (ν := fun _ => 1) (readLines_congr rfl file ?_)
    have hbare : Line.bare? extra = none := by rw [Line.bare?, hsilent.ofRaw?_eq_none, Option.map_none]
    rw [scanLines_joinLines (hinline _ hextra),
      scanLines_joinLines (List.forall_mem_append.2 ⟨hpre, hpost⟩), map_renumber_scanFrom,
      map_renumber_scanFrom, List.filterMap_append, List.filterMap_append, List.filterMap_cons, hbare]

/-- For given lines the condition is checked by evaluation. -/
theorem isLineBreak_eq_false_of_all {lines : List (List Char)}
    (h : (lines.all fun line => line.all fun c => !Text.isLineBreak c) = true) :
    ∀ line ∈ lines, ∀ c ∈ line, Text.isLineBreak c = false := by
  intro line hline c hc
  simpa using List.all_eq_true.1 (List.all_eq_true.1 h line hline) c hc

/-- A line with a quote that has no partner and with a comment of its own takes another comment, and a
line with a comment comes between a header and its block. -/
theorem comments_are_transparent_quotes :
    (parse (joinLines ["tape: '#'".toList, "name: it's # ' x".toList ++ (['\t', ' '] ++ '#' :: "''".toList),
        "rules:".toList, "  s:".toList]) "m").mapError ReadError.unquoted =
      (parse (joinLines ["tape: '#'".toList, "name: it's # ' x".toList, "rules:".toList,
        "  s:".toList]) "m").mapError ReadError.unquoted ∧
    Outcome.SameUpToPlaces
      (parse (joinLines ["tape: '#'".toList, "rules:".toList, "\t# 's:".toList, "  s:".toList]) "m")
      (parse (joinLines ["tape: '#'".toList, "rules:".toList, "  s:".toList]) "m") ∧
    (parse (joinLines ["tape: '#'".toList, "rules:".toList, "  s:".toList]) "m").isOk = true := by
  refine ⟨?_, ?_, by rfl⟩
  · exact (comments_are_transparent ["tape: '#'".toList] ["rules:".toList, "  s:".toList] "m"
      (isLineBreak_eq_false_of_all rfl) (isLineBreak_eq_false_of_all rfl)).1 _ _ _
      (List.forall_mem_singleton.1 (isLineBreak_eq_false_of_all rfl)) (by decide)
      (List.all_eq_true.1 rfl) (List.forall_mem_singleton.1 (isLineBreak_eq_false_of_all rfl))
      (by decide) (by decide)
  · exact (comments_are_transparent ["tape: '#'".toList, "rules:".toList] ["  s:".toList] "m"
      (isLineBreak_eq_false_of_all rfl) (isLineBreak_eq_false_of_all rfl)).2 _
      (.inr ⟨['\t'], " 's:".toList, List.all_eq_true.1 rfl, by rfl⟩)
      (List.forall_mem_singleton.1 (isLineBreak_eq_false_of_all rfl)) (by decide) (by decide)

end TapeLang
