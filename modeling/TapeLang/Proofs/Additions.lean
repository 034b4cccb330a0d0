import Mathlib
import TapeLang.Proofs.Suppression
import TapeLang.Proofs.SuppressionComment

/-!
# Suppressions are the union of what has been added

Suppressions begin with some identifiers that are silenced everywhere, and are added to in three ways, in any
order. What is silenced in the end is the union of all that has been added.

* `Suppressions.Addition`, `Suppressions.addAll`: the ways of adding, and many of them in turn;
* `Suppressions.mem_everywhere_addAll`, `Suppressions.mem_inline_addAll`: what is silenced everywhere and on a
  line;
* `suppressions_are_a_union`: which diagnostics are silenced.
-/

namespace TapeLang

namespace Suppressions

/-- A way of adding to suppressions. -/
inductive Addition where
  | everywhere (id : String)
  | inline (line : Int) (id : String)
  /-- What the comments of a source text say. -/
  | load (source : List Char)
  deriving DecidableEq, Repr

/-- The suppressions after an addition. -/
def add (s : Suppressions) : Addition → Suppressions
  | .everywhere id => s.addGlobal id
  | .inline line id => s.addInline line id
  | .load source => s.load source

/-- The suppressions after additions in turn. -/
def addAll (s : Suppressions) (adds : List Addition) : Suppressions := adds.foldl add s

/-- The identifier is listed for line `k` by the first suppression comment of that line of the source text, or
of the line before. -/
def ListedFor (source : List Char) (k : Int) (id : String) : Prop :=
  ∃ (m : Nat) (raw : List Char) (ids : List (List Char)), (k = m ∨ k = m + 1) ∧
    Text.line? source m = some raw ∧ FirstComment raw ids ∧ id.toList ∈ ids

variable {s : Suppressions} {k : Int} {id : String}

/-! ### One addition -/

theorem mem_everywhere_add {a : Addition} :
    id ∈ (s.add a).everywhere ↔ id ∈ s.everywhere ∨ a = .everywhere id := by
  cases a with
  | everywhere id' => simp [add, addGlobal, or_comm, eq_comm]
  | inline line id' => simp [add, addInline]
  | load source => simp [add, load, everywhere_loadFrom]

theorem mem_inline_add {a : Addition} :
    (k, id) ∈ (s.add a).inline ↔
      (k, id) ∈ s.inline ∨ a = .inline k id ∨ ∃ source, a = .load source ∧ ListedFor source k id := by
  cases a with
  | everywhere id' => simp [add, addGlobal]
  | inline line id' => simp [add, addInline, or_comm, eq_comm]
  | load source =>
    have hlisted : (k, id) ∈ (s.load source).inline ↔ (k, id) ∈ s.inline ∨ ListedFor source k id := by
      rw [mem_load]
      refine or_congr_right ⟨?_, ?_⟩
      · rintro ⟨m, raw, ids, hraw, hids, hid, hk⟩
        exact ⟨m, raw, ids, hk, hraw, directiveIds?_eq_some_iff.1 hids, hid⟩
      · rintro ⟨m, raw, ids, hk, hraw, hids, hid⟩
        exact ⟨m, raw, ids, hraw, directiveIds?_eq_some_iff.2 hids, hid, hk⟩
    simp [add, hlisted]

/-! ### Additions in turn -/

theorem mem_everywhere_addAll {adds : List Addition} :
    id ∈ (s.addAll adds).everywhere ↔ id ∈ s.everywhere ∨ .everywhere id ∈ adds := by
  induction adds generalizing s with
  | nil => simp [addAll]
  | cons a adds ih =>
    have hcons : s.addAll (a :: adds) = (s.add a).addAll adds := rfl
    rw [hcons, ih, mem_everywhere_add, List.mem_cons, or_assoc, eq_comm (a := a)]

theorem mem_inline_addAll {adds : List Addition} :
    (k, id) ∈ (s.addAll adds).inline ↔
      (k, id) ∈ s.inline ∨ .inline k id ∈ adds ∨ ∃ source, .load source ∈ adds ∧ ListedFor source k id := by
  induction adds generalizing s with
  | nil => simp [addAll]
  | cons a adds ih =>
    have hcons : s.addAll (a :: adds) = (s.add a).addAll adds := rfl
    simp only [hcons, ih, mem_inline_add, List.mem_cons, or_and_right, exists_or, eq_comm (b := a)]
    rw [or_assoc, or_or_or_comm]

/-- The identifier that stands for all is listed by no comment. -/
theorem not_listedFor_star (source : List Char) (k : Int) : ¬ListedFor source k "*" := by
  rintro ⟨m, raw, ids, -, -, hids, hid⟩
  exact star_notMem_of_directiveIds? (directiveIds?_eq_some_iff.2 hids) hid

/-- A diagnostic is silenced everywhere by its identifier or the one that stands for all. -/
theorem covers_iff {s : Suppressions} {d : Diagnostic} :
    s.covers d = true ↔
      (∃ id, (id = d.id ∨ id = "*") ∧ id ∈ s.everywhere) ∨
        ∃ l, d.location = some l ∧ ∃ id, (id = d.id ∨ id = "*") ∧ (l.line, id) ∈ s.inline := by
  unfold covers
  cases d.location <;> simp [or_and_right, exists_or]

/-- **What is silenced by additions in turn.** -/
theorem covers_addAll {given : List String} {adds : List Addition} {d : Diagnostic} :
    (addAll { everywhere := given } adds).covers d = true ↔
      (∃ id, (id = d.id ∨ id = "*") ∧ (id ∈ given ∨ .everywhere id ∈ adds)) ∨
        ∃ l, d.location = some l ∧
          ((∃ id, (id = d.id ∨ id = "*") ∧ .inline l.line id ∈ adds) ∨
            ∃ source, .load source ∈ adds ∧ ListedFor source l.line d.id) := by
  simp only [covers_iff, mem_everywhere_addAll, mem_inline_addAll, List.not_mem_nil, false_or]
  refine or_congr_right (exists_congr fun l => and_congr_right fun _ => ?_)
  constructor
  · rintro ⟨id, hid, hinline | ⟨source, hsource, hlisted⟩⟩
    · exact .inl ⟨id, hid, hinline⟩
    · rcases hid with rfl | rfl
      · exact .inr ⟨source, hsource, hlisted⟩
      · exact absurd hlisted (not_listedFor_star source l.line)
  · rintro (⟨id, hid, hinline⟩ | ⟨source, hsource, hlisted⟩)
    · exact ⟨id, hid, .inl hinline⟩
    · exact ⟨d.id, .inl rfl, .inr ⟨source, hsource, hlisted⟩⟩

theorem covers_addAll_perm {given : List String} {adds adds' : List Addition} (h : adds.Perm adds')
    (d : Diagnostic) :
    (addAll { everywhere := given } adds').covers d = (addAll { everywhere := given } adds).covers d := by
  rw [Bool.eq_iff_iff, covers_addAll, covers_addAll]
  simp only [h.mem_iff]

end Suppressions

/-- A logical line has the number of its physical line. -/
theorem line?_of_mem_scanLines {source : List Char} {line : Line} (h : line ∈ scanLines source) :
    Text.line? source line.number = some line.raw := by
  obtain ⟨raw, hraw, hline⟩ := mem_scanLines.1 h
  rw [hraw, (Line.code_prefix hline).1]

/-- **Suppressions are the union of what has been added.** Begin with identifiers that are silenced everywhere
and make any additions in any order. A diagnostic is silenced exactly if its identifier, or the one that
stands for all, was given at the beginning or added everywhere; or if it has a location, and one of the two
was added for its line, or its identifier is listed by the first suppression comment of its line, or of the
line before, in a text that was loaded. The lines of a text have the numbers that reading it gives to them.
Hence a diagnostic without location is silenced everywhere or not at all, and the order of the additions does
not matter. -/
theorem suppressions_are_a_union (given : List String) (adds : List Suppressions.Addition)
    (d : Diagnostic) :
    let s : Suppressions := Suppressions.addAll { everywhere := given } adds
    (s.covers d = true ↔
      (∃ id, (id = d.id ∨ id = "*") ∧ (id ∈ given ∨ .everywhere id ∈ adds)) ∨
        ∃ l, d.location = some l ∧
          ((∃ id, (id = d.id ∨ id = "*") ∧ .inline l.line id ∈ adds) ∨
            ∃ source, .load source ∈ adds ∧ Suppressions.ListedFor source l.line d.id)) ∧
      (∀ source, .load source ∈ adds → ∀ line ∈ scanLines source,
        Text.line? source line.number = some line.raw) ∧
      (d.location = none →
        (s.covers d = true ↔
          ∃ id, (id = d.id ∨ id = "*") ∧ (id ∈ given ∨ .everywhere id ∈ adds))) ∧
      ∀ adds', adds.Perm adds' →
        (Suppressions.addAll { everywhere := given } adds').covers d = s.covers d := by
  intro s
  refine ⟨Suppressions.covers_addAll, fun source _ line hline => line?_of_mem_scanLines hline, ?_, ?_⟩
  · intro hnone
    rw [Suppressions.covers_addAll, hnone]
    simp
  · exact fun adds' hperm => Suppressions.covers_addAll_perm hperm d

/-- A text with comments on two lines in a row. The second one lists two identifiers and ends before a comma;
behind it stands a third, which does not count. -/
def adjacentComments : List Char :=
  "x # tur-suppress a\r\n#TUR-ſuppress\tb  c-1, d # tur-suppress e".toList

/-- Four additions, among them two texts. -/
def mixedAdditions : List Suppressions.Addition :=
  [.inline (-1) "*", .load adjacentComments, .everywhere "g", .load "#tur-suppress e".toList]

/-- Below the second comment its last identifier is silenced, in whatever order the additions are made;
without a location it is not, and neither is what the third comment lists. -/
theorem suppressions_are_a_union_adjacent_comments :
    let s := Suppressions.addAll { everywhere := ["f"] } mixedAdditions
    let below (id : String) : Diagnostic := ⟨id, "", .warning, some ⟨"m", 3, 1⟩, none, .empty⟩
    mixedAdditions.Perm mixedAdditions.reverse ∧
      s.covers (below "c-1") = true ∧
      (Suppressions.addAll { everywhere := ["f"] } mixedAdditions.reverse).covers (below "c-1") = true ∧
      s.covers { below "c-1" with location := none } = false ∧ s.covers (below "e") = false := by
  intro s below
  have hlisted : Suppressions.ListedFor adjacentComments 3 "c-1" := by
    refine ⟨2, "#TUR-ſuppress\tb  c-1, d # tur-suppress e".toList, ["b".toList, "c-1".toList], .inr rfl,
      by decide +kernel, ?_, by simp⟩
    exact directiveIds?_eq_some_iff.1 (by decide +kernel)
  have hperm : mixedAdditions.Perm mixedAdditions.reverse := (List.reverse_perm _).symm
  obtain ⟨hcovers, -, -, horder⟩ := suppressions_are_a_union ["f"] mixedAdditions (below "c-1")
  obtain ⟨-, -, hnone, -⟩ :=
    suppressions_are_a_union ["f"] mixedAdditions { below "c-1" with location := none }
  have hbelow : s.covers (below "c-1") = true :=
    hcovers.2 (.inr ⟨_, rfl, .inr ⟨adjacentComments, by simp [mixedAdditions], hlisted⟩⟩)
  refine ⟨hperm, hbelow, (horder _ hperm).trans hbelow, ?_, by decide +kernel⟩
  rw [← Bool.not_eq_true, hnone rfl]
  rintro ⟨id, rfl | rfl, hid⟩ <;> simp [below, mixedAdditions] at hid

end TapeLang
