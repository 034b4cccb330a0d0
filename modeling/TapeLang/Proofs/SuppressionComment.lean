import Mathlib
import TapeLang.Diagnostic.Suppression
import TapeLang.Proofs.Content

/-!
# The form of a suppression comment

A suppression comment is a number sign, spaces or none, the word `tur-suppress` in letters of either case, at
least one space, and identifiers with spaces between them, as many as there are. A line may have several; the
first one counts.

* `Identifiers`, `EndsList`: a list of identifiers, and what can stand behind it if nothing is left out;
* `ListsIds`: the text behind the number sign of a suppression comment;
* `FirstComment`: what the first suppression comment of a line lists;
* `identifiers_of_idsFrom`, `idsAfterSign?_eq_some_iff`, `directiveIds?_eq_some_iff`: the search finds just
  that.
-/

namespace TapeLang

/-! ### Characters -/

set_option maxRecDepth 10000 in
theorem Text.otherNumberRanges_spaceCodes :
    ∀ n ∈ spaceCodes, otherNumberRanges.contains n = false := by
  decide +kernel

/-- No space belongs to an identifier. -/
theorem isIdChar_of_isSpace {c : Char} (h : Text.isSpace c = true) : isIdChar c = false := by
  have hcode := Text.mem_spaceCodes h
  have hranges := Text.contains_spaceCodes c.toNat hcode
  have hother := Text.otherNumberRanges_spaceCodes c.toNat hcode
  have hdigit : Text.isDigit c = false := (Bool.or_eq_false_iff.1 (Text.isDecimal_eq_false hcode)).1
  have hsigns : '_'.toNat ∉ Text.spaceCodes ∧ '-'.toNat ∉ Text.spaceCodes := by decide
  have hunderscore : c ≠ '_' := by
    rintro rfl
    exact hsigns.1 hcode
  have hhyphen : c ≠ '-' := by
    rintro rfl
    exact hsigns.2 hcode
  simp only [Text.nameRanges, List.forall_mem_cons] at hranges
  obtain ⟨hletter, -, -, hnumber, -⟩ := hranges
  simp [isIdChar, Text.isIdentChar, Text.isLetter, Text.isLetterNumber, Text.isOtherNumber, hletter,
    hnumber, hother, hdigit, hunderscore, hhyphen]

theorem isSpace_of_isIdChar {c : Char} (h : isIdChar c = true) : Text.isSpace c = false := by
  by_contra hspace
  rw [isIdChar_of_isSpace (by simpa using hspace)] at h
  cases h

/-- The word does not begin with a space. -/
theorem isSpace_of_sameLetter {c : Char} (h : sameLetter 't' c = true) : Text.isSpace c = false := by
  have hcodes : ∀ n ∈ Text.spaceCodes, sameLetter 't' (Char.ofNat n) = false := by decide +kernel
  by_contra hspace
  have hcode := hcodes c.toNat (Text.mem_spaceCodes (by simpa using hspace))
  rw [Char.ofNat_toNat, h] at hcode
  cases hcode

/-! ### The form -/

/-- The text is the word in letters of either case. -/
def Spells (word s : List Char) : Prop := List.Forall₂ (fun w c => sameLetter w c = true) word s

/-- The text is a list of identifiers with spaces between them. -/
inductive Identifiers : List (List Char) → List Char → Prop
  | last {id : List Char} (ne : id ≠ []) (chars : ∀ c ∈ id, isIdChar c = true) : Identifiers [id] id
  | cons {id spaces s : List Char} {ids : List (List Char)} (ne : id ≠ [])
      (chars : ∀ c ∈ id, isIdChar c = true) (apart : spaces ≠ [])
      (blank : ∀ c ∈ spaces, Text.isSpace c = true) (more : Identifiers ids s) :
      Identifiers (id :: ids) (id ++ (spaces ++ s))

/-- The text neither goes on with an identifier nor has spaces and then one. -/
def EndsList (s : List Char) : Prop :=
  ∀ spaces c rest, s = spaces ++ c :: rest → (∀ x ∈ spaces, Text.isSpace x = true) → isIdChar c = false

/-- The text begins like a suppression comment behind its number sign, and the comment lists `ids`. -/
inductive ListsIds (ids : List (List Char)) : List Char → Prop
  | intro {gap word spaces list rest : List Char} (gap_blank : ∀ c ∈ gap, Text.isSpace c = true)
      (spells : Spells "tur-suppress".toList word) (apart : spaces ≠ [])
      (blank : ∀ c ∈ spaces, Text.isSpace c = true) (identifiers : Identifiers ids list)
      (ends : EndsList rest) : ListsIds ids (gap ++ (word ++ (spaces ++ (list ++ rest))))

/-- The first suppression comment of the line lists `ids`. -/
def FirstComment (line : List Char) (ids : List (List Char)) : Prop :=
  ∃ before after, line = before ++ '#' :: after ∧ ListsIds ids after ∧
    ∀ before' after' ids', line = before' ++ '#' :: after' → ListsIds ids' after' →
      before.length ≤ before'.length

/-! ### The parts -/

theorem afterWord_eq_some_iff {word s rest : List Char} :
    afterWord word s = some rest ↔ ∃ key, s = key ++ rest ∧ Spells word key := by
  unfold Spells
  induction word generalizing s with
  | nil =>
    rw [afterWord, Option.some_inj]
    exact ⟨fun h => ⟨[], h, .nil⟩, fun ⟨key, hs, hkey⟩ => by cases hkey; exact hs⟩
  | cons w word ih =>
    cases s with
    | nil =>
      refine iff_of_false (by simp [afterWord]) ?_
      rintro ⟨key, hs, hkey⟩
      cases hkey
      cases hs
    | cons c s =>
      rw [afterWord]
      split
      · next hc =>
        rw [ih]
        constructor
        · rintro ⟨key, rfl, hkey⟩
          exact ⟨c :: key, rfl, .cons hc hkey⟩
        · rintro ⟨_, hs, hkey⟩
          cases hkey with
          | cons _ hkey =>
            obtain ⟨rfl, rfl⟩ := List.cons.inj hs
            exact ⟨_, rfl, hkey⟩
      · next hc =>
        refine iff_of_false (by simp) ?_
        rintro ⟨_, hs, hkey⟩
        cases hkey with
        | cons hc' _ =>
          obtain ⟨rfl, -⟩ := List.cons.inj hs
          exact hc hc'

section Span

variable {p : Char → Bool} {front rest : List Char}

/-- The front of a text is its characters of a class, if the rest does not begin with one. -/
theorem takeWhile_append_eq (hfront : ∀ c ∈ front, p c = true) (hrest : ∀ c ∈ rest.head?, p c = false) :
    (front ++ rest).takeWhile p = front := by
  rw [List.takeWhile_append_of_pos hfront]
  cases rest with
  | nil => simp
  | cons c rest => simp [hrest c rfl]

theorem dropWhile_append_eq (hfront : ∀ c ∈ front, p c = true) (hrest : ∀ c ∈ rest.head?, p c = false) :
    (front ++ rest).dropWhile p = rest := by
  rw [List.dropWhile_append_of_pos hfront, Text.dropWhile_eq_self hrest]

theorem head?_dropWhile_eq_false (p : Char → Bool) (s : List Char) :
    ∀ c ∈ (s.dropWhile p).head?, p c = false := by
  intro c hc
  have := List.head?_dropWhile_not p s
  rw [hc] at this
  simpa using this

end Span

theorem afterSpaces?_eq_some_iff {s rest : List Char} :
    afterSpaces? s = some rest ↔
      ∃ spaces, s = spaces ++ rest ∧ spaces ≠ [] ∧ (∀ c ∈ spaces, Text.isSpace c = true) ∧
        ∀ c ∈ rest.head?, Text.isSpace c = false := by
  cases s with
  | nil =>
    refine iff_of_false (by simp [afterSpaces?]) ?_
    rintro ⟨spaces, hs, hne, -⟩
    exact hne (List.append_eq_nil_iff.1 hs.symm).1
  | cons c s =>
    rw [afterSpaces?]
    constructor
    · intro h
      split at h
      · next hc =>
        cases h
        refine ⟨c :: s.takeWhile Text.isSpace, ?_, by simp, ?_, head?_dropWhile_eq_false _ s⟩
        · rw [List.cons_append, List.takeWhile_append_dropWhile]
        · exact List.forall_mem_cons.2 ⟨hc, fun x hx => List.mem_takeWhile_imp hx⟩
      · cases h
    · rintro ⟨spaces, hs, hne, hspaces, hrest⟩
      obtain ⟨d, spaces, rfl⟩ := List.exists_cons_of_ne_nil hne
      obtain ⟨rfl, rfl⟩ := List.cons.inj hs
      rw [List.forall_mem_cons] at hspaces
      rw [if_pos hspaces.1]
      exact congrArg some (dropWhile_append_eq hspaces.2 hrest)

theorem afterSpaces?_eq_none_iff {s : List Char} :
    afterSpaces? s = none ↔ ∀ c ∈ s.head?, Text.isSpace c = false := by
  cases s with
  | nil => simp [afterSpaces?]
  | cons c s => simp [afterSpaces?]

/-! ### The list -/

theorem Identifiers.head?_isIdChar {ids : List (List Char)} {s : List Char} (h : Identifiers ids s)
    (rest : List Char) : ∃ c, (s ++ rest).head? = some c ∧ isIdChar c = true := by
  cases h with
  | @last id ne chars =>
    obtain ⟨c, id, rfl⟩ := List.exists_cons_of_ne_nil ne
    exact ⟨c, rfl, chars c List.mem_cons_self⟩
  | @cons id spaces s ids ne chars apart blank more =>
    obtain ⟨c, id, rfl⟩ := List.exists_cons_of_ne_nil ne
    exact ⟨c, rfl, chars c List.mem_cons_self⟩

theorem EndsList.head? {s : List Char} (h : EndsList s) : ∀ c ∈ s.head?, isIdChar c = false := by
  intro c hc
  obtain ⟨rest, rfl⟩ := List.head?_eq_some_iff.1 hc
  exact h [] c rest rfl (by simp)

theorem EndsList.drop_spaces {spaces s : List Char} (h : EndsList (spaces ++ s))
    (hspaces : ∀ c ∈ spaces, Text.isSpace c = true) : ∀ c ∈ s.head?, isIdChar c = false := by
  intro c hc
  obtain ⟨rest, rfl⟩ := List.head?_eq_some_iff.1 hc
  exact h spaces c rest rfl hspaces

/-- A text ends a list if behind its leading spaces there is no identifier. -/
theorem endsList_of_dropWhile {s : List Char}
    (h : ∀ c ∈ (s.dropWhile Text.isSpace).head?, isIdChar c = false) : EndsList s := by
  rintro spaces c rest rfl hspaces
  by_cases hc : Text.isSpace c = true
  · exact isIdChar_of_isSpace hc
  · refine h c ?_
    rw [dropWhile_append_eq hspaces (by simpa using hc)]
    rfl

theorem idsFrom_eq_nil_iff {fuel : Nat} {s : List Char} (hfuel : s.length ≤ fuel) :
    idsFrom fuel s = [] ↔ ∀ c ∈ s.head?, isIdChar c = false := by
  cases fuel with
  | zero =>
    rw [List.eq_nil_of_length_eq_zero (Nat.le_zero.1 hfuel)]
    simp [idsFrom]
  | succ fuel =>
    cases s with
    | nil => simp [idsFrom]
    | cons c s => by_cases hc : isIdChar c = true <;> simp [idsFrom, hc]

theorem idsFrom_succ_append {id rest : List Char} (ne : id ≠ []) (chars : ∀ c ∈ id, isIdChar c = true)
    (hrest : ∀ c ∈ rest.head?, isIdChar c = false) (fuel : Nat) :
    idsFrom (fuel + 1) (id ++ rest) =
      id :: match afterSpaces? rest with
        | some more => idsFrom fuel more
        | none => [] := by
  rw [idsFrom, takeWhile_append_eq chars hrest, dropWhile_append_eq chars hrest]
  exact if_neg (by simpa using ne)

/-- A list with nothing left out behind it is found whole. -/
theorem idsFrom_of_identifiers {ids : List (List Char)} {list rest : List Char}
    (h : Identifiers ids list) (hends : EndsList rest) {fuel : Nat}
    (hfuel : (list ++ rest).length ≤ fuel) : idsFrom fuel (list ++ rest) = ids := by
  induction h generalizing fuel with
  | @last id ne chars =>
    have hpos := List.length_pos_of_ne_nil ne
    rw [List.length_append] at hfuel
    obtain ⟨fuel, rfl⟩ := Nat.exists_eq_succ_of_ne_zero (show fuel ≠ 0 by omega)
    rw [idsFrom_succ_append ne chars hends.head?]
    cases hmore : afterSpaces? rest with
    | none => rfl
    | some more =>
      obtain ⟨spaces, rfl, -, hspaces, -⟩ := afterSpaces?_eq_some_iff.1 hmore
      rw [List.length_append] at hfuel
      exact congrArg (id :: ·) ((idsFrom_eq_nil_iff (by omega)).2 (hends.drop_spaces hspaces))
  | @cons id spaces s ids ne chars apart blank more ih =>
    have hpos := List.length_pos_of_ne_nil ne
    simp only [List.append_assoc, List.length_append] at hfuel ⊢
    obtain ⟨fuel, rfl⟩ := Nat.exists_eq_succ_of_ne_zero (show fuel ≠ 0 by omega)
    obtain ⟨c, hc, hid⟩ := more.head?_isIdChar rest
    have hgap : ∀ d ∈ (spaces ++ (s ++ rest)).head?, isIdChar d = false := by
      obtain ⟨d, spaces, rfl⟩ := List.exists_cons_of_ne_nil apart
      rintro _ ⟨⟩
      exact isIdChar_of_isSpace (blank d List.mem_cons_self)
    have hmore : afterSpaces? (spaces ++ (s ++ rest)) = some (s ++ rest) := by
      refine afterSpaces?_eq_some_iff.2 ⟨spaces, rfl, apart, blank, ?_⟩
      rw [hc]
      rintro _ ⟨⟩
      exact isSpace_of_isIdChar hid
    rw [idsFrom_succ_append ne chars hgap, hmore]
    refine congrArg (id :: ·) (ih ?_)
    rw [List.length_append]
    omega

/-- Where anything is found, it is a list with nothing left out behind it. -/
theorem identifiers_of_idsFrom {fuel : Nat} {s : List Char} (hfuel : s.length ≤ fuel)
    (hne : idsFrom fuel s ≠ []) :
    ∃ list rest, s = list ++ rest ∧ Identifiers (idsFrom fuel s) list ∧ EndsList rest := by
  induction fuel generalizing s with
  | zero => exact absurd rfl hne
  | succ fuel ih =>
    have hword : s.takeWhile isIdChar ≠ [] := by
      intro hnil
      refine hne ?_
      rw [idsFrom, hnil]
      rfl
    have hchars : ∀ c ∈ s.takeWhile isIdChar, isIdChar c = true := fun c hc => List.mem_takeWhile_imp hc
    have hrest := head?_dropWhile_eq_false isIdChar s
    have hs : s = s.takeWhile isIdChar ++ s.dropWhile isIdChar := List.takeWhile_append_dropWhile.symm
    generalize s.takeWhile isIdChar = word at hword hchars hs
    generalize s.dropWhile isIdChar = behind at hrest hs
    subst hs
    have hpos := List.length_pos_of_ne_nil hword
    rw [List.length_append] at hfuel
    rw [idsFrom_succ_append hword hchars hrest]
    cases hmore : afterSpaces? behind with
    | none =>
      have hspace := Text.dropWhile_eq_self (afterSpaces?_eq_none_iff.1 hmore)
      exact ⟨word, behind, rfl, .last hword hchars, endsList_of_dropWhile (hspace.symm ▸ hrest)⟩
    | some more =>
      obtain ⟨spaces, rfl, apart, blank, hhead⟩ := afterSpaces?_eq_some_iff.1 hmore
      rw [List.length_append] at hfuel
      have hlength : more.length ≤ fuel := by omega
      show ∃ list rest, word ++ (spaces ++ more) = list ++ rest ∧
        Identifiers (word :: idsFrom fuel more) list ∧ EndsList rest
      by_cases hnil : idsFrom fuel more = []
      · rw [hnil]
        refine ⟨word, spaces ++ more, rfl, .last hword hchars, endsList_of_dropWhile ?_⟩
        rw [dropWhile_append_eq blank hhead]
        exact (idsFrom_eq_nil_iff hlength).1 hnil
      · obtain ⟨list, rest, rfl, hids, hends⟩ := ih hlength hnil
        refine ⟨word ++ (spaces ++ list), rest, ?_, .cons hword hchars apart blank hids, hends⟩
        simp only [List.append_assoc]

/-! ### The comment -/

theorem Identifiers.ne_nil {ids : List (List Char)} {s : List Char} (h : Identifiers ids s) : ids ≠ [] := by
  cases h <;> simp

/-- **What is found behind a number sign** is what a suppression comment lists there. -/
theorem idsAfterSign?_eq_some_iff {s : List Char} {ids : List (List Char)} :
    idsAfterSign? s = some ids ↔ ListsIds ids s := by
  constructor
  · intro h
    unfold idsAfterSign? at h
    split at h
    · cases h
    next rest hrest =>
    split at h
    · cases h
    next found hne =>
    cases h
    obtain ⟨behind, hword, hspaces⟩ := Option.bind_eq_some_iff.1 hrest
    obtain ⟨word, hs, spells⟩ := afterWord_eq_some_iff.1 hword
    obtain ⟨spaces, rfl, apart, blank, -⟩ := afterSpaces?_eq_some_iff.1 hspaces
    obtain ⟨list, rest, rfl, identifiers, ends⟩ := identifiers_of_idsFrom le_rfl hne
    rw [← List.takeWhile_append_dropWhile (p := Text.isSpace) (l := s), hs]
    exact .intro (fun c hc => List.mem_takeWhile_imp hc) spells apart blank identifiers ends
  · rintro @⟨gap, word, spaces, list, rest, gap_blank, spells, apart, blank, identifiers, ends⟩
    have hword : ∀ c ∈ (word ++ (spaces ++ (list ++ rest))).head?, Text.isSpace c = false := by
      cases spells with
      | cons hfirst _ =>
        rintro _ ⟨⟩
        exact isSpace_of_sameLetter hfirst
    obtain ⟨c, hc, hid⟩ := identifiers.head?_isIdChar rest
    have hspaces : afterSpaces? (spaces ++ (list ++ rest)) = some (list ++ rest) := by
      refine afterSpaces?_eq_some_iff.2 ⟨spaces, rfl, apart, blank, ?_⟩
      rw [hc]
      rintro _ ⟨⟩
      exact isSpace_of_isIdChar hid
    have hids := idsFrom_of_identifiers identifiers ends le_rfl
    unfold idsAfterSign?
    rw [dropWhile_append_eq gap_blank hword, afterWord_eq_some_iff.2 ⟨word, rfl, spells⟩,
      Option.bind_some, hspaces]
    simp only [hids]
    cases ids with
    | nil => exact absurd rfl identifiers.ne_nil
    | cons id ids => rfl

theorem idsAtSign?_eq_some_iff {c : Char} {s : List Char} {ids : List (List Char)} :
    (if c = '#' then idsAfterSign? s else none) = some ids ↔ c = '#' ∧ ListsIds ids s := by
  rw [← idsAfterSign?_eq_some_iff]
  split <;> simp [*]

/-- **The search finds what the first suppression comment of a line lists.** -/
theorem directiveIds?_eq_some_iff {line : List Char} {ids : List (List Char)} :
    directiveIds? line = some ids ↔ FirstComment line ids := by
  induction line with
  | nil =>
    refine iff_of_false (by simp [directiveIds?]) ?_
    rintro ⟨before, after, h, -⟩
    simp at h
  | cons c s ih =>
    rw [directiveIds?]
    cases hfirst : (if c = '#' then idsAfterSign? s else none) with
    | some found =>
      -- the comment begins with the first character, and none can begin earlier
      obtain ⟨rfl, hfound⟩ := idsAtSign?_eq_some_iff.1 hfirst
      constructor
      · rintro ⟨⟩
        exact ⟨[], s, rfl, hfound, fun _ _ _ _ _ => Nat.zero_le _⟩
      · rintro ⟨before, after, hline, hlists, hleast⟩
        have hbefore : before = [] :=
          List.eq_nil_of_length_eq_zero (Nat.le_zero.1 (hleast [] s found rfl hfound))
        subst hbefore
        obtain ⟨-, rfl⟩ := List.cons.inj hline
        exact hfirst.symm.trans (idsAtSign?_eq_some_iff.2 ⟨rfl, hlists⟩)
    | none =>
      have hlater : ∀ before after ids', c :: s = before ++ '#' :: after → ListsIds ids' after →
          ∃ before', before = c :: before' ∧ s = before' ++ '#' :: after := by
        intro before after ids' hline hlists
        cases before with
        | nil =>
          obtain ⟨rfl, rfl⟩ := List.cons.inj hline
          rw [idsAtSign?_eq_some_iff.2 ⟨rfl, hlists⟩] at hfirst
          cases hfirst
        | cons b before =>
          obtain ⟨rfl, rfl⟩ := List.cons.inj hline
          exact ⟨before, rfl, rfl⟩
      show directiveIds? s = some ids ↔ FirstComment (c :: s) ids
      rw [ih]
      constructor
      · rintro ⟨before, after, rfl, hlists, hleast⟩
        refine ⟨c :: before, after, rfl, hlists, fun before' after' ids' hline hlists' => ?_⟩
        obtain ⟨before', rfl, hs⟩ := hlater before' after' ids' hline hlists'
        exact Nat.succ_le_succ (hleast before' after' ids' hs hlists')
      · rintro ⟨before, after, hline, hlists, hleast⟩
        obtain ⟨before, rfl, hs⟩ := hlater before after ids hline hlists
        refine ⟨before, after, hs, hlists, fun before' after' ids' hs' hlists' => ?_⟩
        exact Nat.le_of_succ_le_succ (hleast (c :: before') after' ids' (congrArg (c :: ·) hs') hlists')

end TapeLang
