import Mathlib
import TapeLang.Proofs.Pattern

/-!
# Committed choice loses nothing

A pattern never takes back an alternative or a repetition that has matched. So it may fail to match a text
that it derives, and it may give it another value. This file says when neither happens: what may follow a
pattern has to keep it from going on, or from going another way.

* `Pattern.Commits`: in front of every rest of some kind, the pattern takes exactly the text of each of its
  derivations; the value is that of the derivation, put right by a function;
* `Pattern.commits_char`, `Pattern.Commits.seq` and the others: one lemma for each way of forming patterns;
* `Pattern.ReadsAsGrammar`: the pattern as a matcher and as a grammar agree on a text.
-/

namespace TapeLang.Pattern

variable {α β γ : Type} {F G : List Char → Prop}

/-! ### Matches put together -/

section Sequence

variable {a : Pattern α} {b : Pattern β} {n n₁ n₂ : Nat} {s s₁ s₂ : List Char} {x : α} {y : β}

theorem match?_andThen (ha : a.match? n s = some ⟨x, n₁, s₁⟩) (hb : b.match? n₁ s₁ = some ⟨y, n₂, s₂⟩) :
    (a.andThen b).match? n s = some ⟨y, n₂, s₂⟩ := by
  simp only [andThen, match?_map, match?_seq, ha, hb]

theorem match?_andSkip (ha : a.match? n s = some ⟨x, n₁, s₁⟩) (hb : b.match? n₁ s₁ = some ⟨y, n₂, s₂⟩) :
    (a.andSkip b).match? n s = some ⟨x, n₂, s₂⟩ := by
  simp only [andSkip, match?_map, match?_seq, ha, hb]

theorem match?_opt_of_match? (ha : a.match? n s = some ⟨x, n₁, s₁⟩) (hs : s ≠ []) :
    (Pattern.opt a).match? n s = some ⟨some x, n₁, s₁⟩ := by
  simp [match?_opt, ha, hs]

end Sequence

/-! ### Patterns that commit -/

/-- In front of a rest with the property `F`, the pattern takes the text of a derivation, whatever else it
could have derived, and gives the value of the derivation, put right by `fix`. -/
def Commits (p : Pattern α) (fix : α → α) (F : List Char → Prop) : Prop :=
  ∀ ⦃n t v rest⦄, p.Derives n t v → F rest →
    p.match? n (t ++ rest) = some ⟨fix v, n + t.length, rest⟩

/-- Every text that the pattern derives begins with a character of the class `S`. -/
def Begins (p : Pattern α) (S : Char → Prop) : Prop :=
  ∀ ⦃n t v⦄, p.Derives n t v → ∃ c cs, t = c :: cs ∧ S c

theorem begins_char {p : Char → Bool} {S : Char → Prop} (h : ∀ c, p c = true → S c) :
    (Pattern.char p).Begins S := by
  rintro n t c ⟨rfl, hc⟩
  exact ⟨c, [], rfl, h c hc⟩

theorem Begins.seq {a : Pattern α} {S : Char → Prop} (ha : a.Begins S) (b : Pattern β) :
    (Pattern.seq a b).Begins S := by
  rintro n t ⟨x, y⟩ ⟨t, u, rfl, hx, -⟩
  obtain ⟨c, cs, rfl, hc⟩ := ha hx
  exact ⟨c, cs ++ u, rfl, hc⟩

theorem Begins.alt {a b : Pattern α} {S : Char → Prop} (ha : a.Begins S) (hb : b.Begins S) :
    (Pattern.alt a b).Begins S := by
  rintro n t v (h | h)
  · exact ha h
  · exact hb h

theorem Begins.map {a : Pattern α} {S : Char → Prop} (ha : a.Begins S) (f : Nat → α → β) :
    (Pattern.map f a).Begins S := by
  rintro n t v ⟨x, hx, -⟩
  exact ha hx

theorem Begins.rule {a : Pattern α} {S : Char → Prop} (ha : a.Begins S) : (Pattern.rule a).Begins S := ha

theorem Begins.token {a : Pattern α} {S : Char → Prop} (ha : a.Begins S) : (Pattern.token a).Begins S := ha

theorem Begins.andThen {a : Pattern α} {S : Char → Prop} (ha : a.Begins S) (b : Pattern β) :
    (a.andThen b).Begins S := (ha.seq b).map _

theorem Begins.andSkip {a : Pattern α} {S : Char → Prop} (ha : a.Begins S) (b : Pattern β) :
    (a.andSkip b).Begins S := (ha.seq b).map _

theorem Begins.mono {p : Pattern α} {S T : Char → Prop} (h : p.Begins S) (hT : ∀ c, S c → T c) :
    p.Begins T := by
  intro n t v hp
  obtain ⟨c, cs, rfl, hc⟩ := h hp
  exact ⟨c, cs, rfl, hT c hc⟩

theorem Commits.mono {p : Pattern α} {fix : α → α} (h : p.Commits fix F) (hG : ∀ rest, G rest → F rest) :
    p.Commits fix G := fun _ _ _ rest hp hrest => h hp (hG rest hrest)

theorem commits_char (p : Char → Bool) : (Pattern.char p).Commits id fun _ => True := by
  rintro n t c rest ⟨rfl, hc⟩ -
  simp [match?_char, hc]

theorem commits_run (p : Char → Bool) :
    (Pattern.run p).Commits id fun rest => ∀ c ∈ rest.head?, p c = false := by
  rintro n t cs rest ⟨rfl, hcs⟩ hrest
  obtain ⟨v, hv, rfl⟩ := takes_run hcs hrest n
  exact hv

/-- The first part of a sequence has to commit in front of what the second derives. -/
theorem Commits.seq {a : Pattern α} {b : Pattern β} {fa : α → α} {fb : β → β} (ha : a.Commits fa F)
    (hb : b.Commits fb G) (hfollow : ∀ ⦃n u y rest⦄, b.Derives n u y → G rest → F (u ++ rest)) :
    (Pattern.seq a b).Commits (Prod.map fa fb) G := by
  rintro n t ⟨x, y⟩ rest ⟨t, u, rfl, hx, hy⟩ hrest
  simp only [match?_seq, List.append_assoc, ha hx (hfollow hy hrest), hb hy hrest, List.length_append,
    Nat.add_assoc, Prod.map]

/-- The first alternative must not match where the second is meant. -/
theorem Commits.alt {a b : Pattern α} {fix : α → α} (ha : a.Commits fix F) (hb : b.Commits fix F)
    (hrefuses : ∀ ⦃n t v rest⦄, b.Derives n t v → F rest → a.Refuses (t ++ rest)) :
    (Pattern.alt a b).Commits fix F := by
  rintro n t v rest (h | h) hrest
  · simp only [match?_alt, ha h hrest]
  · simp only [match?_alt, hrefuses h hrest n, hb h hrest]

/-- An optional part must not match where it is left out, nor be empty where it is there. -/
theorem Commits.opt {a : Pattern α} {fix : α → α} {S : Char → Prop} (ha : a.Commits fix F)
    (hbegins : a.Begins S) :
    (Pattern.opt a).Commits (Option.map fix) fun rest => F rest ∧ a.Refuses rest := by
  rintro n t v rest (⟨rfl, rfl⟩ | ⟨x, hx, rfl⟩) ⟨hrest, hrefuses⟩
  · obtain ⟨v, hv, rfl⟩ := hrefuses.opt n
    exact hv
  · obtain ⟨c, cs, rfl, -⟩ := hbegins hx
    exact match?_opt_of_match? (ha hx hrest) (List.cons_ne_nil c _)

/-- A repetition must not match where it ends, and each of its parts has to commit in front of the
next. -/
theorem Commits.many {a : Pattern α} {fix : α → α} {S : Char → Prop} (ha : a.Commits fix F)
    (hbegins : a.Begins S) (hfollow : ∀ ⦃n u y⦄, a.Derives n u y → ∀ rest, F (u ++ rest)) :
    (Pattern.many a).Commits (List.map fix) fun rest => F rest ∧ a.Refuses rest := by
  rintro n t vs rest h ⟨hrest, hrefuses⟩
  change Repeats _ n t vs at h
  have hall : ∀ fuel, (t ++ rest).length ≤ fuel →
      matchAll (fun n s => a.match? n s) fuel n (t ++ rest) =
        ⟨vs.map fix, n + t.length, rest⟩ := by
    induction h with
    | nil n =>
      rintro (- | fuel) -
      · rfl
      · simp [matchAll, hrefuses n]
    | @cons n t u v vs head tail ih =>
      -- behind the first part comes the next one or the rest
      have hnext : F (u ++ rest) := by
        cases tail with
        | nil => exact hrest
        | @cons _ t' u' _ _ head' _ =>
          rw [List.append_assoc]
          exact hfollow head' _
      obtain ⟨c, cs, rfl, -⟩ := hbegins head
      rintro (- | fuel) hfuel
      · simp at hfuel
      · have hmatch := ha head hnext
        have htail := ih fuel (by simp at hfuel ⊢; omega)
        have hmoved : n + (c :: cs).length ≠ n := by simp
        rw [List.append_assoc, matchAll, hmatch, if_neg (by simp)]
        simp only [if_neg hmoved, htail, List.map_cons, List.length_append, Nat.add_assoc]
  rw [match?_many, hall _ le_rfl]

theorem Commits.map {a : Pattern α} {f : Nat → α → β} {fa : α → α} {fb : β → β} (ha : a.Commits fa F)
    (hf : ∀ n v, f n (fa v) = fb (f n v)) : (Pattern.map f a).Commits fb F := by
  rintro n t v rest ⟨x, hx, rfl⟩ hrest
  simp only [match?_map, ha hx hrest, hf]

theorem Commits.token {a : Pattern α} {fix : α → α} (ha : a.Commits fix F) :
    (Pattern.token a).Commits fix F := ha

theorem Commits.rule {a : Pattern α} {fix : α → α} (ha : a.Commits fix F) :
    (Pattern.rule a).Commits fix F := ha

theorem Commits.andThen {a : Pattern α} {b : Pattern β} {fa : α → α} {fb : β → β} (ha : a.Commits fa F)
    (hb : b.Commits fb G) (hfollow : ∀ ⦃n u y rest⦄, b.Derives n u y → G rest → F (u ++ rest)) :
    (a.andThen b).Commits fb G := (ha.seq hb hfollow).map fun _ _ => rfl

theorem Commits.andSkip {a : Pattern α} {b : Pattern β} {fa : α → α} {fb : β → β} (ha : a.Commits fa F)
    (hb : b.Commits fb G) (hfollow : ∀ ⦃n u y rest⦄, b.Derives n u y → G rest → F (u ++ rest)) :
    (a.andSkip b).Commits fa G := (ha.seq hb hfollow).map fun _ _ => rfl

/-! ### Whole texts -/

/-- The pattern describes the text `s` as a matcher exactly if it does so as a grammar, and the value is
the proper one among those of its derivations. -/
structure ReadsAsGrammar (p : Pattern α) (Proper : α → Prop) (s : List Char) : Prop where
  accepts : (∃ v, p.parse s = .ok v) ↔ ∃ v, p.Derives 0 s v
  value : ∀ v, p.parse s = .ok v ↔ p.Derives 0 s v ∧ Proper v

/-- **A pattern that commits at the end of a text reads it as a grammar.** -/
theorem Commits.readsAsGrammar {p : Pattern α} {fix : α → α} {Proper : α → Prop}
    (h : p.Commits fix (· = [])) (hproper : ∀ v, Proper (fix v)) (hfix : ∀ v, Proper v → fix v = v)
    (s : List Char) : p.ReadsAsGrammar Proper s := by
  have hparse : ∀ v, p.Derives 0 s v → p.parse s = .ok (fix v) := by
    intro v hv
    have hmatch := h hv rfl
    rw [List.append_nil] at hmatch
    simp [Pattern.parse, hmatch]
  refine ⟨⟨?_, ?_⟩, fun v => ⟨fun hv => ?_, ?_⟩⟩
  · rintro ⟨v, hv⟩
    exact ⟨v, derives_of_parse hv⟩
  · rintro ⟨v, hv⟩
    exact ⟨fix v, hparse v hv⟩
  · have hderives := derives_of_parse hv
    have hvalue : fix v = v := Except.ok.inj ((hparse v hderives).symm.trans hv)
    exact ⟨hderives, hvalue ▸ hproper v⟩
  · rintro ⟨hderives, hv⟩
    rw [hparse v hderives, hfix v hv]

end TapeLang.Pattern
