import Mathlib
import TapeLang.Pattern

/-!
# The language of a pattern

A pattern can be read in two ways: as a matcher, with ordered choice and greedy repetition
(`Pattern.match?`), and as a rule of a grammar, with free choice and free repetition. This file relates
the two.

* `Repeats`, `Pattern.Derives`: the grammar, as a relation between texts and values;
* `Strewn`: values that come from pieces of a text, from left to right;
* `Pattern.derives_of_match`, `Pattern.derives_of_parse`: what is matched is derived;
* `Pattern.Takes`, `Pattern.Refuses`: a pattern matches exactly a given text in front of a given rest, or
  does not match there, with one lemma for each way of forming patterns.
-/

namespace TapeLang

/-- A text that begins at position `n`, cut into pieces which `G` relates to the given values. -/
inductive Repeats {α : Type} (G : Nat → List Char → α → Prop) : Nat → List Char → List α → Prop
  | nil (n : Nat) : Repeats G n [] []
  | cons {n : Nat} {s t : List Char} {v : α} {vs : List α} (head : G n s v)
      (tail : Repeats G (n + s.length) t vs) : Repeats G n (s ++ t) (v :: vs)

/-- A text that begins at position `n`, with pieces in it, one behind the other and with anything between
them, which `G` relates to the given values. -/
inductive Strewn {α : Type} (G : Nat → List Char → α → Prop) : Nat → List Char → List α → Prop
  | nil (n : Nat) (s : List Char) : Strewn G n s []
  | cons {n : Nat} {gap s t : List Char} {v : α} {vs : List α} (head : G (n + gap.length) s v)
      (tail : Strewn G (n + gap.length + s.length) t vs) : Strewn G n (gap ++ (s ++ t)) (v :: vs)

namespace Strewn

variable {α : Type} {G : Nat → List Char → α → Prop} {n : Nat} {s : List Char} {v : α} {vs : List α}

theorem singleton (h : G n s v) : Strewn G n s [v] := by
  have hcons : Strewn G n ([] ++ (s ++ [])) [v] := .cons h (.nil _ [])
  rwa [List.nil_append, List.append_nil] at hcons

theorem append_left (t : List Char) (h : Strewn G (n + t.length) s vs) : Strewn G n (t ++ s) vs := by
  cases h with
  | nil => exact .nil n _
  | @cons _ gap s s' v vs head tail =>
    rw [← List.append_assoc]
    refine .cons ?_ ?_
    · rwa [List.length_append, ← Nat.add_assoc]
    · rwa [List.length_append, ← Nat.add_assoc]

theorem append_right (t : List Char) (h : Strewn G n s vs) : Strewn G n (s ++ t) vs := by
  induction h with
  | nil => exact .nil _ _
  | cons head _ ih =>
    rw [List.append_assoc, List.append_assoc]
    exact .cons head ih

/-- Every value has its piece. -/
theorem exists_piece (h : Strewn G n s vs) (hv : v ∈ vs) :
    ∃ before piece after, s = before ++ (piece ++ after) ∧ G (n + before.length) piece v := by
  induction h with
  | nil => cases hv
  | @cons n gap s t w ws head _ ih =>
    rcases List.mem_cons.1 hv with rfl | hv
    · exact ⟨gap, s, t, rfl, head⟩
    · obtain ⟨before, piece, after, rfl, hpiece⟩ := ih hv
      refine ⟨gap ++ (s ++ before), piece, after, by simp, ?_⟩
      simpa [Nat.add_assoc] using hpiece

/-- The pieces of later values stand further right. -/
theorem pairwise (h : Strewn G n s vs) :
    vs.Pairwise fun v w => ∃ i piece j piece', G i piece v ∧ G j piece' w ∧ i + piece.length ≤ j := by
  induction h with
  | nil => exact .nil
  | cons head tail ih =>
    refine List.pairwise_cons.2 ⟨fun w hw => ?_, ih⟩
    obtain ⟨before, piece, -, -, hpiece⟩ := tail.exists_piece hw
    exact ⟨_, _, _, piece, head, hpiece, Nat.le_add_right _ _⟩

end Strewn

/-- The match takes a text from the front of `s` that `G` relates to its value. -/
def Match.Consumes {α : Type} (G : Nat → List Char → α → Prop) (n : Nat) (s : List Char)
    (m : Match α) : Prop :=
  ∃ t, s = t ++ m.rest ∧ m.stop = n + t.length ∧ G n t m.value

namespace Pattern

/-- The text `s`, which begins at position `n`, is derived by the pattern with value `v`. -/
def Derives {α : Type} : Pattern α → Nat → List Char → α → Prop
  | .char p, _, s, c => s = [c] ∧ p c = true
  | .run p, _, s, cs => s = cs ∧ ∀ c ∈ cs, p c = true
  | .seq a b, n, s, v =>
    ∃ s₁ s₂, s = s₁ ++ s₂ ∧ a.Derives n s₁ v.1 ∧ b.Derives (n + s₁.length) s₂ v.2
  | .alt a b, n, s, v => a.Derives n s v ∨ b.Derives n s v
  | .opt a, n, s, v => (s = [] ∧ v = none) ∨ ∃ x, a.Derives n s x ∧ v = some x
  | .many a, n, s, vs => Repeats (fun n s v => a.Derives n s v) n s vs
  | .map f a, n, s, v => ∃ x, a.Derives n s x ∧ v = f n x
  | .token a, n, s, v => a.Derives n s v
  | .rule a, n, s, v => a.Derives n s v

/-! ### Soundness -/

theorem consumes_matchAll {α : Type} {G : Nat → List Char → α → Prop}
    {f : Nat → List Char → Option (Match α)}
    (hf : ∀ n s m, f n s = some m → Match.Consumes G n s m) (fuel n : Nat) (s : List Char) :
    Match.Consumes (Repeats G) n s (matchAll f fuel n s) := by
  have stop : ∀ n s, Match.Consumes (Repeats G) n s ⟨[], n, s⟩ := fun n s =>
    ⟨[], rfl, rfl, .nil n⟩
  induction fuel generalizing n s with
  | zero => exact stop n s
  | succ fuel ih =>
    unfold matchAll
    split
    · exact stop n s
    · cases hm : f n s with
      | none => exact stop n s
      | some m =>
        obtain ⟨t, hs, hstop, ht⟩ := hf n s m hm
        dsimp only
        split
        · next hempty =>
          -- a match of no character ends the repetition
          have : t = [] := List.eq_nil_of_length_eq_zero (by omega)
          subst this
          exact ⟨[], rfl, rfl, .cons ht (.nil _)⟩
        · obtain ⟨u, hu, hustop, hus⟩ := ih m.stop m.rest
          refine ⟨t ++ u, ?_, ?_, .cons ht (hstop ▸ hus)⟩
          · rw [List.append_assoc, ← hu, ← hs]
          · rw [hustop, hstop, List.length_append, Nat.add_assoc]

/-! ### The matcher, constructor by constructor -/

section Equations

variable {α β : Type} (n : Nat) (s : List Char)

theorem match?_char (p : Char → Bool) (c : Char) :
    (Pattern.char p).match? n (c :: s) = if p c then some ⟨c, n + 1, s⟩ else none := rfl

theorem match?_run (p : Char → Bool) :
    (Pattern.run p).match? n s =
      some ⟨s.takeWhile p, n + (s.takeWhile p).length, s.dropWhile p⟩ := rfl

theorem match?_seq (a : Pattern α) (b : Pattern β) :
    (Pattern.seq a b).match? n s =
      match a.match? n s with
      | none => none
      | some m =>
        match b.match? m.stop m.rest with
        | none => none
        | some k => some ⟨(m.value, k.value), k.stop, k.rest⟩ := rfl

theorem match?_alt (a b : Pattern α) :
    (Pattern.alt a b).match? n s =
      match a.match? n s with
      | some m => some m
      | none => b.match? n s := rfl

theorem match?_opt (a : Pattern α) :
    (Pattern.opt a).match? n s =
      if s.isEmpty then some ⟨none, n, s⟩
      else
        match a.match? n s with
        | some m => some ⟨some m.value, m.stop, m.rest⟩
        | none => some ⟨none, n, s⟩ := rfl

theorem match?_many (a : Pattern α) :
    (Pattern.many a).match? n s = some (matchAll (fun n s => a.match? n s) s.length n s) := rfl

theorem match?_map (f : Nat → α → β) (a : Pattern α) :
    (Pattern.map f a).match? n s =
      match a.match? n s with
      | some m => some ⟨f n m.value, m.stop, m.rest⟩
      | none => none := rfl

end Equations

/-- **What a pattern matches, it derives.** -/
theorem derives_of_match {α : Type} {p : Pattern α} {n : Nat} {s : List Char} {m : Match α}
    (h : p.match? n s = some m) : Match.Consumes p.Derives n s m := by
  induction p generalizing n s with
  | char p =>
    cases s with
    | nil => cases h
    | cons c s =>
      simp only [match?_char] at h
      split at h
      · next hc => cases h; exact ⟨[c], rfl, rfl, rfl, hc⟩
      · cases h
  | run p =>
    cases h
    refine ⟨s.takeWhile p, List.takeWhile_append_dropWhile.symm, rfl, rfl, ?_⟩
    exact fun c hc => List.mem_takeWhile_imp hc
  | seq a b iha ihb =>
    simp only [match?_seq] at h
    split at h
    · cases h
    · next ma ha =>
      split at h
      · cases h
      · next mb hb =>
        cases h
        obtain ⟨t, hs, hstop, ht⟩ := iha ha
        obtain ⟨u, hu, hustop, hus⟩ := ihb hb
        refine ⟨t ++ u, ?_, ?_, t, u, rfl, ht, hstop ▸ hus⟩
        · rw [List.append_assoc, ← hu, ← hs]
        · rw [hustop, hstop, List.length_append, Nat.add_assoc]
  | alt a b iha ihb =>
    simp only [match?_alt] at h
    split at h
    · next ma ha =>
      cases h
      obtain ⟨t, hs, hstop, ht⟩ := iha ha
      exact ⟨t, hs, hstop, .inl ht⟩
    · obtain ⟨t, hs, hstop, ht⟩ := ihb h
      exact ⟨t, hs, hstop, .inr ht⟩
  | opt a ih =>
    simp only [match?_opt] at h
    split at h
    · cases h; exact ⟨[], rfl, rfl, .inl ⟨rfl, rfl⟩⟩
    · split at h
      · next ma ha =>
        cases h
        obtain ⟨t, hs, hstop, ht⟩ := ih ha
        exact ⟨t, hs, hstop, .inr ⟨ma.value, ht, rfl⟩⟩
      · cases h; exact ⟨[], rfl, rfl, .inl ⟨rfl, rfl⟩⟩
  | many a ih =>
    cases h
    exact consumes_matchAll (fun _ _ _ hm => ih hm) _ _ _
  | map f a ih =>
    simp only [match?_map] at h
    split at h
    · next ma ha =>
      cases h
      obtain ⟨t, hs, hstop, ht⟩ := ih ha
      exact ⟨t, hs, hstop, ma.value, ht, rfl⟩
    · cases h
  | token a ih => exact ih h
  | rule a ih => exact ih h

/-- The value of a whole text is derived by all of it. -/
theorem derives_of_parse {α : Type} {p : Pattern α} {s : List Char} {v : α}
    (h : p.parse s = .ok v) : p.Derives 0 s v := by
  unfold parse at h
  split at h
  · cases h
  · next m hm =>
    split at h
    · next hrest =>
      cases h
      obtain ⟨t, hs, -, ht⟩ := derives_of_match hm
      rw [List.isEmpty_iff.1 hrest, List.append_nil] at hs
      exact hs ▸ ht
    · cases h

/-! ### What the combinations derive -/

section Combinations

variable {α β : Type} {n : Nat} {s : List Char}

theorem derives_andThen {a : Pattern α} {b : Pattern β} {v : β} :
    (a.andThen b).Derives n s v ↔
      ∃ s₁ s₂ x, s = s₁ ++ s₂ ∧ a.Derives n s₁ x ∧ b.Derives (n + s₁.length) s₂ v := by
  constructor
  · rintro ⟨⟨x, y⟩, ⟨s₁, s₂, hs, ha, hb⟩, rfl⟩
    exact ⟨s₁, s₂, x, hs, ha, hb⟩
  · rintro ⟨s₁, s₂, x, hs, ha, hb⟩
    exact ⟨(x, v), ⟨s₁, s₂, hs, ha, hb⟩, rfl⟩

theorem derives_andSkip {a : Pattern α} {b : Pattern β} {v : α} :
    (a.andSkip b).Derives n s v ↔
      ∃ s₁ s₂ y, s = s₁ ++ s₂ ∧ a.Derives n s₁ v ∧ b.Derives (n + s₁.length) s₂ y := by
  constructor
  · rintro ⟨⟨x, y⟩, ⟨s₁, s₂, hs, ha, hb⟩, rfl⟩
    exact ⟨s₁, s₂, y, hs, ha, hb⟩
  · rintro ⟨s₁, s₂, y, hs, ha, hb⟩
    exact ⟨(v, y), ⟨s₁, s₂, hs, ha, hb⟩, rfl⟩

end Combinations

/-! ### Taking a given text -/

section Taking

variable {α β γ ξ : Type} {t u rest s : List Char}

/-- Wherever it stands, the pattern takes exactly `t` from the front of `t ++ rest`, and the value has
the property `Q`. -/
def Takes (p : Pattern α) (t rest : List Char) (Q : α → Prop) : Prop :=
  ∀ n, ∃ v, p.match? n (t ++ rest) = some ⟨v, n + t.length, rest⟩ ∧ Q v

/-- The pattern does not match at the front of `s`. -/
def Refuses (p : Pattern α) (s : List Char) : Prop := ∀ n, p.match? n s = none

theorem Takes.parse {p : Pattern α} {Q : α → Prop} (h : p.Takes t [] Q) :
    ∃ v, p.parse t = .ok v ∧ Q v := by
  obtain ⟨v, hv, hQ⟩ := h 0
  rw [List.append_nil] at hv
  exact ⟨v, by simp [Pattern.parse, hv], hQ⟩

theorem Takes.imp {p : Pattern α} {P Q : α → Prop} (h : p.Takes t rest P) (hPQ : ∀ v, P v → Q v) :
    p.Takes t rest Q := by
  intro n
  obtain ⟨v, hv, hP⟩ := h n
  exact ⟨v, hv, hPQ v hP⟩

theorem takes_char {p : Char → Bool} {c : Char} (h : p c = true) :
    (Pattern.char p).Takes [c] rest (· = c) := fun n => ⟨c, by simp [match?_char, h], rfl⟩

theorem takes_exactly (c : Char) : (exactly c).Takes [c] rest (· = c) := takes_char (by simp)

theorem refuses_char {p : Char → Bool} (h : ∀ c ∈ s.head?, p c = false) : (Pattern.char p).Refuses s := by
  intro n
  cases s with
  | nil => rfl
  | cons c s => simp [match?_char, h c rfl]

/-- A run takes `t` if `t` is of its class and the rest does not continue it. -/
theorem takes_run {p : Char → Bool} (ht : ∀ c ∈ t, p c = true) (hr : ∀ c ∈ rest.head?, p c = false) :
    (Pattern.run p).Takes t rest (· = t) := by
  have htake : rest.takeWhile p = [] := by
    cases rest with
    | nil => rfl
    | cons c rest => simp [hr c rfl]
  have hdrop : rest.dropWhile p = rest := by
    cases rest with
    | nil => rfl
    | cons c rest => simp [hr c rfl]
  refine fun n => ⟨t, ?_, rfl⟩
  simp only [match?_run, List.takeWhile_append_of_pos ht, List.dropWhile_append_of_pos ht, htake, hdrop,
    List.append_nil]

theorem Takes.map {a : Pattern α} {f : Nat → α → β} {P : α → Prop} {Q : β → Prop}
    (h : a.Takes t rest P) (hPQ : ∀ n v, P v → Q (f n v)) : (Pattern.map f a).Takes t rest Q := by
  intro n
  obtain ⟨v, hv, hP⟩ := h n
  exact ⟨f n v, by simp only [match?_map, hv], hPQ n v hP⟩

theorem Refuses.map {a : Pattern α} {f : Nat → α → β} (h : a.Refuses s) :
    (Pattern.map f a).Refuses s := fun n => by simp only [match?_map, h n]

theorem Takes.rule {a : Pattern α} {P : α → Prop} (h : a.Takes t rest P) :
    (Pattern.rule a).Takes t rest P := h

theorem Refuses.rule {a : Pattern α} (h : a.Refuses s) : (Pattern.rule a).Refuses s := h

theorem Takes.token {a : Pattern α} {P : α → Prop} (h : a.Takes t rest P) :
    (Pattern.token a).Takes t rest P := h

theorem Refuses.token {a : Pattern α} (h : a.Refuses s) : (Pattern.token a).Refuses s := h

theorem Takes.seq {a : Pattern α} {b : Pattern β} {P : α → Prop} {Q : β → Prop}
    (ha : a.Takes t (u ++ rest) P) (hb : b.Takes u rest Q) :
    (Pattern.seq a b).Takes (t ++ u) rest fun x => P x.1 ∧ Q x.2 := by
  intro n
  obtain ⟨x, hx, hP⟩ := ha n
  obtain ⟨y, hy, hQ⟩ := hb (n + t.length)
  refine ⟨(x, y), ?_, hP, hQ⟩
  simp only [match?_seq, List.append_assoc, hx, hy, List.length_append, Nat.add_assoc]

theorem Refuses.seq {a : Pattern α} {b : Pattern β} (h : a.Refuses s) : (Pattern.seq a b).Refuses s :=
  fun n => by simp only [match?_seq, h n]

/-- A sequence fails where its second part does. -/
theorem Takes.refuses_seq {a : Pattern α} {b : Pattern β} {P : α → Prop} (ha : a.Takes t rest P)
    (hb : b.Refuses rest) : (Pattern.seq a b).Refuses (t ++ rest) := by
  intro n
  obtain ⟨x, hx, -⟩ := ha n
  simp only [match?_seq, hx, hb (n + t.length)]

theorem Takes.andThen {a : Pattern α} {b : Pattern β} {P : α → Prop} {Q : β → Prop}
    (ha : a.Takes t (u ++ rest) P) (hb : b.Takes u rest Q) : (a.andThen b).Takes (t ++ u) rest Q :=
  (ha.seq hb).map fun _ _ h => h.2

theorem Takes.andSkip {a : Pattern α} {b : Pattern β} {P : α → Prop} {Q : β → Prop}
    (ha : a.Takes t (u ++ rest) P) (hb : b.Takes u rest Q) : (a.andSkip b).Takes (t ++ u) rest P :=
  (ha.seq hb).map fun _ _ h => h.1

theorem Takes.alt_left {a b : Pattern α} {P : α → Prop} (h : a.Takes t rest P) :
    (Pattern.alt a b).Takes t rest P := by
  intro n
  obtain ⟨v, hv, hP⟩ := h n
  exact ⟨v, by simp only [match?_alt, hv], hP⟩

theorem Takes.alt_right {a b : Pattern α} {P : α → Prop} (ha : a.Refuses (t ++ rest))
    (hb : b.Takes t rest P) : (Pattern.alt a b).Takes t rest P := by
  intro n
  obtain ⟨v, hv, hP⟩ := hb n
  exact ⟨v, by simp only [match?_alt, ha n, hv], hP⟩

theorem Refuses.alt {a b : Pattern α} (ha : a.Refuses s) (hb : b.Refuses s) :
    (Pattern.alt a b).Refuses s := fun n => by simp only [match?_alt, ha n, hb n]

theorem Takes.opt {a : Pattern α} {P : α → Prop} (hne : t ≠ []) (h : a.Takes t rest P) :
    (Pattern.opt a).Takes t rest fun x => ∃ v, x = some v ∧ P v := by
  intro n
  obtain ⟨v, hv, hP⟩ := h n
  exact ⟨some v, by simp [match?_opt, hv, hne], v, rfl, hP⟩

/-- An optional part is left out where its pattern does not match. -/
theorem Refuses.opt {a : Pattern α} (h : a.Refuses rest) : (Pattern.opt a).Takes [] rest (· = none) := by
  intro n
  refine ⟨none, ?_, rfl⟩
  simp [match?_opt, h n]

/-- What repetition finds: `val` of the values is `key` of the items whose texts follow one another. -/
theorem matchAll_of_takes {p : Pattern α} {text : ξ → List Char} {val : α → γ} {key : ξ → γ}
    {xs : List ξ} (hne : ∀ x ∈ xs, text x ≠ []) (hstop : p.Refuses rest)
    (hitem : ∀ x ∈ xs, ∀ ys : List ξ, p.Takes (text x) (ys.flatMap text ++ rest) (val · = key x))
    (fuel n : Nat) (hfuel : (xs.flatMap text ++ rest).length ≤ fuel) :
    ∃ vs, matchAll (fun n s => p.match? n s) fuel n (xs.flatMap text ++ rest) =
        ⟨vs, n + (xs.flatMap text).length, rest⟩ ∧ vs.map val = xs.map key := by
  induction xs generalizing fuel n with
  | nil =>
    refine ⟨[], ?_, rfl⟩
    cases fuel with
    | zero => rfl
    | succ fuel =>
      simp [matchAll, hstop n]
  | cons x xs ih =>
    rw [List.forall_mem_cons] at hne hitem
    have hpos : 0 < (text x).length := List.length_pos_iff.2 hne.1
    rw [List.flatMap_cons, List.append_assoc] at hfuel ⊢
    rw [List.length_append] at hfuel
    obtain ⟨fuel, rfl⟩ := Nat.exists_eq_succ_of_ne_zero (n := fuel) (by omega)
    obtain ⟨v, hv, hval⟩ := hitem.1 xs n
    obtain ⟨vs, hvs, hvals⟩ := ih hne.2 hitem.2 fuel (n + (text x).length) (by omega)
    refine ⟨v :: vs, ?_, by rw [List.map_cons, List.map_cons, hval, hvals]⟩
    simp [matchAll, hv, hvs, hne.1, Nat.add_assoc]

theorem takes_many {p : Pattern α} {text : ξ → List Char} {val : α → γ} {key : ξ → γ} {xs : List ξ}
    (hne : ∀ x ∈ xs, text x ≠ []) (hstop : p.Refuses rest)
    (hitem : ∀ x ∈ xs, ∀ ys : List ξ, p.Takes (text x) (ys.flatMap text ++ rest) (val · = key x)) :
    (Pattern.many p).Takes (xs.flatMap text) rest fun vs => vs.map val = xs.map key := by
  intro n
  obtain ⟨vs, hvs, hvals⟩ := matchAll_of_takes hne hstop hitem _ n le_rfl
  exact ⟨vs, by rw [match?_many, hvs], hvals⟩

end Taking

end Pattern

end TapeLang
