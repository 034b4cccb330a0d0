import Mathlib
import TapeLang.Proofs.LineLanguage
import TapeLang.Proofs.PhysicalLine

/-!
# Where a text is refused

A text is refused at a place: a line, a column of it and, if something does not match there, the character
that was met. The column comes from a position in a piece of the line, counted from wherever that piece
begins, and some refusals are about a line that was read long before.

* `Pattern.pos_le_of_parse`: a mismatch lies inside the text, or right behind it;
* `SourceError.PointsAt`: an error points at a place of a line;
* `Reader.Keeps`, `Reader.Keeps.feed`: the lines that the reader keeps for later errors;
* `refusals_point_at_their_place`: where a text can be refused.
-/

namespace TapeLang

/-! ### The place of a mismatch -/

theorem furthest_le {k : Nat} {fs : List Failure} (h : ∀ f ∈ fs, f.pos ≤ k) : furthest fs ≤ k := by
  cases fs with
  | nil => exact Nat.zero_le k
  | cons f fs =>
    rw [List.forall_mem_cons] at h
    refine List.foldlRecOn fs _ (motive := (· ≤ k)) h.1 fun best hbest g hg => ?_
    split
    · exact max_le hbest (h.2 g hg)
    · exact hbest

namespace Pattern

variable {α : Type} {n : Nat} {s : List Char} {f : Failure}

theorem pos_of_mem_failureUnless {m : Option (Match α)} {isRule : Bool}
    (h : f ∈ failureUnless m isRule n) : f.pos = n := by
  unfold failureUnless at h
  split at h
  · cases h
  · rw [List.mem_singleton.1 h]

/-- A match goes from where it begins to where the rest of the text begins. -/
theorem stop_add_length {p : Pattern α} {m : Match α} (h : p.match? n s = some m) :
    m.stop + m.rest.length = n + s.length := by
  obtain ⟨t, hs, hstop, -⟩ := derives_of_match h
  rw [hstop, hs, List.length_append, Nat.add_assoc]

theorem pos_le_of_mem_failuresAll {p : Pattern α}
    (hp : ∀ {n s}, ∀ f ∈ p.failures n s, f.pos ≤ n + s.length) (fuel : Nat)
    (h : f ∈ failuresAll (fun n s => p.match? n s) (fun n s => p.failures n s) fuel n s) :
    f.pos ≤ n + s.length := by
  induction fuel generalizing n s with
  | zero => cases h
  | succ fuel ih =>
    unfold failuresAll at h
    split at h
    · cases h
    · rcases List.mem_append.1 h with h | h
      · exact hp f h
      · cases hm : p.match? n s with
        | none => simp [hm] at h
        | some m =>
          simp only [hm] at h
          split at h
          · cases h
          · rw [← stop_add_length hm]
            exact ih h

/-- **Nothing fails outside the text.** -/
theorem pos_le_of_mem_failures {p : Pattern α} (h : f ∈ p.failures n s) : f.pos ≤ n + s.length := by
  induction p generalizing n s f with
  | char p => exact (pos_of_mem_failureUnless h).le.trans (Nat.le_add_right n _)
  | run p => cases h
  | seq a b iha ihb =>
    rcases List.mem_append.1 h with h | h
    · exact iha h
    · cases hm : a.match? n s with
      | none => simp [hm] at h
      | some m =>
        simp only [hm] at h
        rw [← stop_add_length hm]
        exact ihb h
  | alt a b iha ihb =>
    rcases List.mem_append.1 h with h | h
    · exact iha h
    · split at h
      · cases h
      · exact ihb h
  | opt a ih =>
    simp only [failures] at h
    split at h
    · cases h
    · exact ih h
  | many a ih => exact pos_le_of_mem_failuresAll (fun _ hf => ih hf) _ h
  | map _ a ih => exact ih h
  | token a ih => exact (pos_of_mem_failureUnless h).le.trans (Nat.le_add_right n _)
  | rule a ih =>
    rcases List.mem_append.1 h with h | h
    · exact ih h
    · exact (pos_of_mem_failureUnless h).le.trans (Nat.le_add_right n _)

/-- **A mismatch lies inside the text, or right behind it.** -/
theorem pos_le_of_parse {p : Pattern α} {m : Mismatch} (h : p.parse s = .error m) : m.pos ≤ s.length := by
  unfold parse at h
  split at h
  · cases h
    refine furthest_le fun f hf => ?_
    simpa using pos_le_of_mem_failures hf
  · next hm =>
    split at h
    · cases h
    · cases h
      have hstop := stop_add_length hm
      dsimp only [Mismatch.pos]
      omega

end Pattern

/-! ### Errors that point at a line -/

/-- The error points at a place of the line. The column is that of a character of the code, or the one right
behind the code; an error about a character is about the one in that column. -/
structure SourceError.PointsAt (e : SourceError) (file : String) (line : Line) : Prop where
  file : e.file = file
  number : e.line = line.number
  snippet : e.snippet = line.raw
  place : ∃ k ≤ line.code.length, e.column = k + 1 ∧
    ∀ kind found, e.violation = .malformed kind found → found = line.code[k]?

namespace Reader

variable {r r' : Reader} {line : Line} {e : SourceError} {v : Violation}

theorem pointsAt_of_refuseAt {α : Type} {k : Nat} (hk : k ≤ line.code.length)
    (hv : ∀ kind found, v = .malformed kind found → found = line.code[k]?)
    (h : (r.refuseAt line (k + 1) v : Except ReadError α) = .error (.refused e)) :
    e.PointsAt r.file line := by
  cases h
  exact ⟨rfl, rfl, rfl, k, hk, rfl, hv⟩

/-- What is refused because of a line as a whole is refused at its first character. -/
theorem pointsAt_of_refuse {α : Type} (hv : ∀ kind found, v ≠ .malformed kind found)
    (h : (r.refuse line v : Except ReadError α) = .error (.refused e)) : e.PointsAt r.file line :=
  pointsAt_of_refuseAt (by simp [Line.code]) (fun kind found heq => absurd heq (hv kind found)) h

/-- A position in the last part of the code, which begins after `offset` characters. -/
theorem pointsAt_of_malformed {α : Type} {before text : List Char} {kind : LineKind} {m : Mismatch}
    (hcode : line.code = before ++ text) (hm : m.pos ≤ text.length)
    (h : (r.malformed line before.length kind text m : Except ReadError α) = .error (.refused e)) :
    e.PointsAt r.file line := by
  refine pointsAt_of_refuseAt (k := before.length + m.pos) ?_ ?_ h
  · rw [hcode, List.length_append]
    omega
  · rintro _ _ ⟨⟩
    rw [hcode, List.getElem?_append_right (by omega), Nat.add_sub_cancel_left]

theorem pointsAt_of_readValue {α : Type} {p : Pattern α} {before text : List Char} {kind : LineKind}
    (hcode : line.code = before ++ text)
    (h : r.readValue line before.length kind p text = .error (.refused e)) : e.PointsAt r.file line := by
  unfold readValue at h
  split at h
  · cases h
  · next m hm => exact pointsAt_of_malformed hcode (Pattern.pos_le_of_parse hm) h

theorem pointsAt_of_settle (h : r.settle = .error (.refused e)) :
    ∃ block header, r.pending = some (block, header) ∧ e.PointsAt r.file header := by
  unfold settle at h
  split at h
  · next header hpending => exact ⟨_, header, hpending, pointsAt_of_refuse (by simp) h⟩
  · next header hpending => exact ⟨_, header, hpending, pointsAt_of_refuse (by simp) h⟩
  · cases h

/-- A line that finds no block is refused, or the header before it is. -/
theorem pointsAt_of_enter (h : r.enter line = .error (.refused e)) :
    e.PointsAt r.file line ∨
      ∃ block header, r.pending = some (block, header) ∧ e.PointsAt r.file header := by
  unfold enter at h
  split at h
  · cases h
  · rcases bind_eq_error.1 h with h | ⟨r₁, hr₁, h⟩
    · exact .inr (pointsAt_of_settle h)
    · obtain ⟨-, -, rfl⟩ := settle_eq_ok_iff.1 hr₁
      refine .inl ?_
      split at h
      · exact pointsAt_of_refuseAt (k := 0) (Nat.zero_le _) (by simp) h
      · split at h
        · exact pointsAt_of_refuseAt (k := 0) (Nat.zero_le _) (by simp) h
        · cases h

theorem pointsAt_of_openBlock {d : Directive} {block : Block} {before rest : List Char}
    (hcode : line.code = before ++ rest)
    (h : r.openBlock line d block before.length rest = .error (.refused e)) : e.PointsAt r.file line := by
  unfold openBlock at h
  split at h
  · cases h
  · refine pointsAt_of_refuseAt (k := before.length + (rest.length - (Text.trimStart rest).length)) ?_
      (by simp) h
    rw [hcode, List.length_append]
    omega

theorem readIndex_ne_refused (digits : List Char) : readIndex digits ≠ .error (.refused e) := by
  unfold readIndex
  split <;> simp

theorem pointsAt_of_declare {d : Directive} {before rest : List Char} (hcode : line.code = before ++ rest)
    (h : r.declare line d before.length rest = .error (.refused e)) : e.PointsAt r.file line := by
  cases d with
  | name =>
    simp only [declare] at h
    split at h
    · exact pointsAt_of_refuse (by simp) h
    · cases h
  | tape | blank =>
    rcases bind_eq_error.1 h with h | ⟨_, -, h⟩
    · exact pointsAt_of_readValue hcode h
    · cases h
  | tapes | rules => exact pointsAt_of_openBlock hcode h
  | head =>
    rcases bind_eq_error.1 h with h | ⟨digits, -, h⟩
    · exact pointsAt_of_readValue hcode h
    · rcases bind_eq_error.1 h with h | ⟨_, -, h⟩
      · exact absurd h (readIndex_ne_refused digits)
      · cases h
  | heads =>
    rcases bind_eq_error.1 h with h | ⟨numerals, -, h⟩
    · exact pointsAt_of_readValue hcode h
    · rcases bind_eq_error.1 h with h | ⟨_, -, h⟩
      · obtain ⟨digits, -, h⟩ := exists_of_mapM_eq_error h
        exact absurd h (readIndex_ne_refused digits)
      · cases h

theorem pointsAt_of_directiveLine (h : r.directiveLine line = .error (.refused e)) :
    e.PointsAt r.file line := by
  unfold directiveLine at h
  dsimp only at h
  split at h
  · exact pointsAt_of_refuse (by simp) h
  · next c rest hdrop =>
    split at h
    · exact pointsAt_of_refuse (by simp) h
    · split at h
      · exact pointsAt_of_refuse (by simp) h
      · split at h
        · exact pointsAt_of_refuse (by simp) h
        · -- the value begins behind the indentation, the keyword and the colon
          have hcode : line.code = line.indent ++ line.content.takeWhile (· != ':') ++ [c] ++ rest := by
            rw [List.append_assoc, List.append_assoc, List.singleton_append, ← hdrop,
              List.takeWhile_append_dropWhile]
            rfl
          have hoffset : (line.indent ++ line.content.takeWhile (· != ':') ++ [c]).length =
              line.indent.length + (line.content.takeWhile (· != ':')).length + 1 := by
            simp [Nat.add_assoc]
          rw [← hoffset] at h
          exact pointsAt_of_declare (r := r.note line _) hcode h

theorem pointsAt_of_rowLine (h : r.rowLine line = .error (.refused e)) : e.PointsAt r.file line := by
  rcases bind_eq_error.1 h with h | ⟨_, -, h⟩
  · exact pointsAt_of_readValue rfl h
  · cases h

theorem pointsAt_of_headerLine (h : r.headerLine line = .error (.refused e)) : e.PointsAt r.file line := by
  unfold headerLine at h
  split at h
  · next m hm =>
    split at h
    · exact pointsAt_of_refuse (by simp) h
    · exact pointsAt_of_malformed rfl (Pattern.pos_le_of_parse hm) h
  · split at h
    · exact pointsAt_of_refuse (by simp) h
    · cases h

theorem pointsAt_of_transitionLine (h : r.transitionLine line = .error (.refused e)) :
    e.PointsAt r.file line := by
  unfold transitionLine at h
  dsimp only at h
  split at h
  · next m hm =>
    split at h
    · exact pointsAt_of_refuse (by simp) h
    · exact pointsAt_of_malformed rfl (Pattern.pos_le_of_parse hm) h
  · next t ht =>
    split at h
    · next v hv =>
      refine pointsAt_of_refuse ?_ h
      rintro kind found rfl
      exact nomatch Ast.Transition.code_of_vectorViolation? hv
    · cases h
    · cases h

/-- A line that is refused is refused for itself, or for the header before it. -/
theorem pointsAt_of_feed (h : r.feed line = .error (.refused e)) :
    e.PointsAt r.file line ∨
      ∃ block header, r.pending = some (block, header) ∧ e.PointsAt r.file header := by
  rcases bind_eq_error.1 h with h | ⟨r₁, hr₁, h⟩
  · exact pointsAt_of_enter h
  · have hfile : r₁.file = r.file := by cases enter_eq_ok_iff.1 hr₁ <;> rfl
    refine .inl ?_
    rw [← hfile]
    split at h
    · exact pointsAt_of_directiveLine h
    · exact pointsAt_of_rowLine h
    · exact pointsAt_of_headerLine h
    · exact pointsAt_of_transitionLine h
    · cases h

/-! ### Lines that are kept for later -/

/-- The lines that the reader keeps for errors about them are among the given ones. -/
structure Keeps (file : String) (lines : List Line) (r : Reader) : Prop where
  file : r.file = file
  pending : ∀ block header, r.pending = some (block, header) → header ∈ lines
  seen : ∀ d line, (d, line) ∈ r.seen → line ∈ lines

variable {file : String} {lines : List Line}

theorem keeps_start (file : String) (lines : List Line) : Keeps file lines { file := file } where
  file := rfl
  pending := by simp
  seen := by simp

theorem Keeps.seenLine? (hr : r.Keeps file lines) {d : Directive} (h : r.seenLine? d = some line) :
    line ∈ lines := by
  obtain ⟨⟨d', line'⟩, hfind, rfl⟩ := Option.map_eq_some_iff.1 h
  exact hr.seen d' line' (List.mem_of_find?_eq_some hfind)

theorem Keeps.enters (hr : r.Keeps file lines) (h : Enters r line r') : r'.Keeps file lines := by
  cases h with
  | opens | closes => exact ⟨hr.file, by simp, hr.seen⟩

theorem Keeps.note (hr : r.Keeps file lines) (hline : line ∈ lines) (d : Directive) :
    (r.note line d).Keeps file lines := by
  refine ⟨hr.file, hr.pending, fun d' line' hmem => ?_⟩
  rcases List.mem_cons.1 hmem with heq | hmem
  · cases heq
    exact hline
  · exact hr.seen d' line' hmem

theorem Keeps.declares (hr : r.Keeps file lines) (hline : line ∈ lines) {offset : Nat} {rest : List Char}
    {d : Directive} (h : Declares r line offset rest d r') : r'.Keeps file lines := by
  cases h with
  | name | tape | head | heads | blank => exact ⟨hr.file, hr.pending, hr.seen⟩
  | tapes | rules =>
    refine ⟨hr.file, ?_, hr.seen⟩
    rintro block header ⟨⟩
    exact hline

/-- One line more is kept at most. -/
theorem Keeps.feed (hr : r.Keeps file lines) (hline : line ∈ lines) (h : r.feed line = .ok r') :
    r'.Keeps file lines := by
  obtain ⟨r₁, henters, hhandles⟩ := feed_eq_ok_iff.1 h
  have hr₁ := hr.enters henters
  cases hhandles with
  | directive context content colon word fresh declares => exact (hr₁.note hline _).declares hline declares
  | row | transition => exact ⟨hr₁.file, hr₁.pending, hr₁.seen⟩
  | header context value fresh =>
    rw [flush_eq]
    refine ⟨hr₁.file, ?_, hr₁.seen⟩
    rintro block header ⟨⟩
    exact hline

theorem Keeps.pointsAt_of_feedAll {rest : List Line} (hr : r.Keeps file lines) (hrest : rest ⊆ lines)
    (h : r.feedAll rest = .error (.refused e)) : ∃ line ∈ lines, e.PointsAt file line := by
  induction rest generalizing r with
  | nil => cases h
  | cons line rest ih =>
    rw [List.cons_subset] at hrest
    rcases bind_eq_error.1 h with h | ⟨r₁, hr₁, h⟩
    · rw [← hr.file]
      rcases pointsAt_of_feed h with he | ⟨block, header, hpending, he⟩
      · exact ⟨line, hrest.1, he⟩
      · exact ⟨header, hr.pending block header hpending, he⟩
    · exact ih (hr.feed hrest.1 hr₁) hrest.2 h

/-- At the end of the text only a section that is missing has no line. -/
theorem Keeps.pointsAt_of_finish (hr : r.Keeps file lines) (hcode : e.violation.code ≠ .missingSection)
    (h : r.finish = .error (.refused e)) : ∃ line ∈ lines, e.PointsAt file line := by
  rw [← hr.file]
  rcases bind_eq_error.1 h with h | ⟨r₁, hr₁, h⟩
  · obtain ⟨block, header, hpending, he⟩ := pointsAt_of_settle h
    exact ⟨header, hr.pending block header hpending, he⟩
  · obtain ⟨-, -, rfl⟩ := settle_eq_ok_iff.1 hr₁
    rw [flush_eq] at h
    unfold assemble at h
    split at h
    · cases h
      exact absurd rfl hcode
    · cases h
      exact absurd rfl hcode
    · split at h
      · cases h
      · split at h
        · cases h
        · split at h
          · next line hline => exact ⟨line, hr.seenLine? hline, pointsAt_of_refuse (by simp) h⟩
          · cases h

end Reader

/-- **Every refusal points at a line of the text**, if it is not one of the text as a whole. -/
theorem pointsAt_of_parse {text : List Char} {file : String} {e : SourceError}
    (h : parse text file = .error (.refused e)) (hsection : e.violation.code ≠ .missingSection)
    (hsize : e.violation.code ≠ .programTooLarge) : ∃ line ∈ scanLines text, e.PointsAt file line := by
  unfold parse at h
  split at h
  · cases h
    exact absurd rfl hsize
  · have hstart := Reader.keeps_start file (scanLines text)
    rcases bind_eq_error.1 h with h | ⟨r, hr, h⟩
    · exact hstart.pointsAt_of_feedAll (List.Subset.refl _) h
    · have hkeeps := Reader.feedAll_induction (fun _ _ _ hline hr h => hr.feed hline h) hstart hr
      exact hkeeps.pointsAt_of_finish hsection h

/-! ### What a refusal says -/

/-- Texts with different characters at some place of their beginnings. -/
theorem ofList_append_ne {a b : List Char} (i : Nat) (ha : i < a.length) (hb : i < b.length)
    (h : a[i]? ≠ b[i]?) (x y : String) : String.ofList a ++ x ≠ String.ofList b ++ y := by
  intro heq
  have hchar := congrArg (fun s => s.toList[i]?) heq
  simp only [String.toList_append, String.toList_ofList, List.getElem?_append_left ha,
    List.getElem?_append_left hb] at hchar
  exact h hchar

/-- Only a mismatch is put into words that begin like this. -/
theorem Violation.malformed_of_message {v : Violation} {rest : String} (h : v.message = "Invalid " ++ rest) :
    ∃ kind found, v = .malformed kind found := by
  -- the other messages have another third letter
  cases v with
  | malformed kind found => exact ⟨kind, found, rfl⟩
  | unexpectedIndent | emptyTapes | emptyRules | noDirective | missingName | expectedHeader | emptyRead
  | missingTape | missingRules =>
    rw [← String.append_empty (s := message _)] at h
    exact absurd h (ofList_append_ne 2 (by decide) (by decide) (by decide) _ _)
  | _ =>
    delta message at h
    simp only [String.append_assoc] at h
    exact absurd h (ofList_append_ne 2 (by decide) (by decide) (by decide) _ _)

/-- A mismatch in words. -/
theorem Violation.message_malformed (kind : LineKind) (found : Option Char) :
    (malformed kind found).message = "Invalid " ++ (kind.text ++ ": unexpected " ++
      (found.map fun c => Text.quoted (String.singleton c)).getD "end of line") := by
  cases found with
  | none =>
    have hwords : ": unexpected end of line" = ": unexpected " ++ "end of line" := by decide +kernel
    show "Invalid " ++ kind.text ++ ": unexpected end of line" = _
    rw [hwords]
    simp only [String.append_assoc, Option.map_none, Option.getD_none]
  | some c =>
    show "Invalid " ++ kind.text ++ ": unexpected " ++ Text.quoted (String.singleton c) = _
    simp only [String.append_assoc, Option.map_some, Option.getD_some]

/-- **Refusals point at their place.** A text that is refused, though not for a missing section or for its
size, is refused at one of its lines. The snippet is that physical line, and the column is one of it, or the
one behind it. If something does not match, the character that is named is the one in that column, or the
column is the one right behind the code of the line. -/
theorem refusals_point_at_their_place {text : List Char} {file : String} {e : SourceError}
    (h : parse text file = .error (.refused e)) (hsection : e.violation.code ≠ .missingSection)
    (hsize : e.violation.code ≠ .programTooLarge) :
    e.file = file ∧ 1 ≤ e.line ∧ e.line ≤ (Text.splitLines text).length ∧
      (Text.splitLines text)[(e.line - 1).toNat]? = some e.snippet ∧
      1 ≤ e.column ∧ e.column ≤ e.snippet.length + 1 ∧
      ∃ line ∈ scanLines text, e.line = line.number ∧ line.code <+: e.snippet ∧
        ∀ rest, e.violation.message = "Invalid " ++ rest → ∃ (kind : LineKind) (x : String),
          rest = kind.text ++ ": unexpected " ++ x ∧
            ((∃ c, e.column ≤ line.code.length ∧ e.snippet[(e.column - 1).toNat]? = some c ∧
                x = Text.quoted (String.singleton c)) ∨
              e.column = line.code.length + 1 ∧ x = "end of line") := by
  obtain ⟨line, hline, hfile, hnumber, hsnippet, k, hk, hcolumn, hfound⟩ :=
    pointsAt_of_parse h hsection hsize
  obtain ⟨raw, hraw, hofRaw⟩ := mem_scanLines.1 hline
  obtain ⟨hline_raw, hprefix⟩ := Line.code_prefix hofRaw
  rw [hline_raw] at hsnippet
  obtain ⟨i, hi⟩ : ∃ i, line.number = i + 1 := by
    cases hn : line.number with
    | zero => rw [hn] at hraw; cases hraw
    | succ i => exact ⟨i, rfl⟩
  rw [hi] at hraw hnumber
  have hlength := hprefix.length_le
  have hi_lt : i < (Text.splitLines text).length := (List.getElem?_eq_some_iff.1 hraw).1
  have hplace : (e.column - 1).toNat = k := by omega
  rw [hsnippet]
  refine ⟨hfile, by omega, by omega, ?_, by omega, by omega, line, hline, by omega, hprefix, ?_⟩
  · rw [show (e.line - 1).toNat = i by omega]
    exact hraw
  · intro rest hmessage
    obtain ⟨kind, found, hv⟩ := Violation.malformed_of_message hmessage
    have hfound' := hfound kind found hv
    rw [hv, Violation.message_malformed] at hmessage
    refine ⟨kind, _, (String.append_right_inj _).1 hmessage.symm, ?_⟩
    rw [hplace]
    rcases Nat.lt_or_eq_of_le hk with hlt | heq
    · rw [List.getElem?_eq_getElem hlt] at hfound'
      refine .inl ⟨line.code.get ⟨k, hlt⟩, by omega, ?_, by rw [hfound']; rfl⟩
      obtain ⟨tail, rfl⟩ := hprefix
      rw [List.getElem?_append_left hlt]
      exact List.getElem?_eq_getElem hlt
    · rw [List.getElem?_eq_none heq.ge] at hfound'
      exact .inr ⟨by omega, by rw [hfound']; rfl⟩

/-- A text with a comment where a value should be. -/
def noValue : List Char := "tape: a\nhead:  # none\nrules:\n  s:\n".toList

/-- The column is the one behind the colon, and the comment is not met. -/
theorem refusals_point_at_their_place_no_value :
    let e : SourceError := ⟨.malformed .headValue none, "m", 2, 6, "head:  # none".toList⟩
    parse noValue "m" = .error (.refused e) ∧
      e.violation.message = "Invalid " ++ "head position: unexpected end of line" ∧
      (Text.splitLines noValue)[(e.line - 1).toNat]? = some e.snippet ∧
      ∃ line ∈ scanLines noValue, line.code <+: e.snippet ∧ ∃ (kind : LineKind) (x : String),
        "head position: unexpected end of line" = kind.text ++ ": unexpected " ++ x ∧
          ((∃ c, e.column ≤ line.code.length ∧ e.snippet[(e.column - 1).toNat]? = some c ∧
              x = Text.quoted (String.singleton c)) ∨
            e.column = line.code.length + 1 ∧ x = "end of line") := by
  intro e
  have hparse : parse noValue "m" = .error (.refused e) := by rfl
  have hmessage : e.violation.message = "Invalid " ++ "head position: unexpected end of line" := by
    decide +kernel
  obtain ⟨-, -, -, hsnippet, -, -, line, hline, -, hcode, hwords⟩ :=
    refusals_point_at_their_place hparse (by decide) (by decide)
  exact ⟨hparse, hmessage, hsnippet, line, hline, hcode, hwords _ hmessage⟩

end TapeLang
