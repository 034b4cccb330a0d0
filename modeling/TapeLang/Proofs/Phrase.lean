import Mathlib
import TapeLang.Proofs.Content
import TapeLang.Proofs.Pattern
import TapeLang.Proofs.Render

/-!
# What the line rules take from a written text

For each line rule, the text that is written for a node is taken as a whole, and the value is that node
up to its place.

* `LineRule.takes_symbol`, `LineRule.takes_listOf`, `LineRule.takes_vector`: symbols and lists;
* `LineRule.takes_transition`: transition lines;
* `LineRule.takes_stateHeader`, `LineRule.takes_tapeValue` and the others: the lines with one part.
-/

namespace TapeLang.LineRule

open Pattern Ast

variable {α β γ δ ξ : Type} (here : Nat → Location) {t u rest : List Char}

/-! ### Blanks and separators -/

/-- The text does not begin with a blank. -/
def Unblank (t : List Char) : Prop := ∀ c ∈ t.head?, Text.isBlank c = false

theorem unblank_nil : Unblank [] := by simp [Unblank]

theorem unblank_cons {c : Char} (h : Text.isBlank c = false) : Unblank (c :: t) := by
  simpa [Unblank] using h

theorem Unblank.append (ht : Unblank t) (hu : Unblank u) : Unblank (t ++ u) := by
  cases t with
  | nil => exact hu
  | cons c t => exact unblank_cons (ht c rfl)

/-- What comes after a text that is not empty does not matter. -/
theorem Unblank.append_right (ht : Unblank t) (hne : t ≠ []) (u : List Char) : Unblank (t ++ u) := by
  obtain ⟨c, t, rfl⟩ := List.exists_cons_of_ne_nil hne
  exact unblank_cons (ht c rfl)

theorem takes_blanks (h : Unblank rest) : blanks.Takes [] rest (· = []) := takes_run (by simp) h

theorem takes_blank (h : Unblank rest) : blanks.Takes [' '] rest (· = [' ']) :=
  takes_run (by simp [Text.isBlank]) h

theorem takes_comma (h : Unblank rest) : comma.Takes [',', ' '] rest (· = ',') :=
  Takes.andThen (t := []) (takes_blanks (unblank_cons (by decide)))
    ((takes_exactly ',').andSkip (takes_blank h))

theorem refuses_comma (h : Unblank t) (hcomma : ∀ c ∈ t.head?, c ≠ ',') : comma.Refuses t := by
  refine Refuses.map ((takes_blanks h).refuses_seq (Refuses.map (Refuses.seq (refuses_char ?_))))
  simpa using hcomma

theorem takes_arrow (h : Unblank rest) : arrow.Takes [' ', '-', '>', ' '] rest fun _ => True := by
  have hsign : (Pattern.token (.seq (exactly '-') (exactly '>'))).Takes ['-', '>'] ([' '] ++ rest)
      fun _ => True :=
    (((takes_exactly '-').seq (takes_exactly '>')).imp fun _ _ => trivial).token
  exact (takes_blank (unblank_cons (by decide))).andThen (hsign.andSkip (takes_blank h))

theorem refuses_arrow (h : Unblank t) (hsign : ∀ c ∈ t.head?, c ≠ '-') : arrow.Refuses t := by
  refine Refuses.map ((takes_blanks h).refuses_seq (Refuses.map (Refuses.seq (Refuses.token ?_))))
  refine Refuses.seq (refuses_char ?_)
  simpa using hsign

/-! ### Lists -/

/-- The text begins with a comma or a closing bracket, or it is empty. -/
def Ends (t : List Char) : Prop := ∀ c ∈ t.head?, c = ',' ∨ c = ']'

/-- The text begins with a closing bracket, or it is empty. -/
def Stops (t : List Char) : Prop := ∀ c ∈ t.head?, c = ']'

theorem Stops.ends (h : Stops t) : Ends t := fun c hc => .inr (h c hc)

theorem stops_nil : Stops [] := by simp [Stops]

theorem stops_cons : Stops (']' :: t) := by simp [Stops]

theorem Stops.unblank (h : Stops t) : Unblank t := by
  intro c hc
  rw [h c hc]
  decide

/-- How the items of a list are written, one by one. -/
structure WritesItem (item : Pattern α) (text : ξ → List Char) (val : α → γ) (key : ξ → γ) (x : ξ) :
    Prop where
  ne_nil : text x ≠ []
  unblank : Unblank (text x)
  takes : ∀ rest, Ends rest → item.Takes (text x) rest (val · = key x)

variable {item : Pattern α} {text : ξ → List Char} {val : α → γ} {key : ξ → γ}

theorem takes_listOf {x : ξ} {xs : List ξ} (h : ∀ y ∈ x :: xs, WritesItem item text val key y)
    (hrest : Stops rest) :
    (listOf item).Takes (listing ((x :: xs).map text)) rest
      fun vs => vs.map val = (x :: xs).map key := by
  rw [List.forall_mem_cons] at h
  -- what follows an item is the comma before the next one, or the rest
  have hends : ∀ ys : List ξ, Ends (ys.flatMap (fun y => ',' :: ' ' :: text y) ++ rest) := by
    intro ys
    cases ys with
    | nil => exact hrest.ends
    | cons y ys => simp [Ends]
  have hstop : (comma.andThen item).Refuses rest := by
    refine Refuses.map (Refuses.seq (refuses_comma hrest.unblank ?_))
    intro c hc
    rw [hrest c hc]
    decide
  have hmany : (Pattern.many (comma.andThen item)).Takes (xs.flatMap fun y => ',' :: ' ' :: text y)
      rest fun vs => vs.map val = xs.map key := by
    refine takes_many (fun y _ => List.cons_ne_nil _ _) hstop ?_
    intro y hy ys
    have hitem := h.2 y hy
    have hafter : Unblank (text y ++ (ys.flatMap (fun y => ',' :: ' ' :: text y) ++ rest)) := by
      refine hitem.unblank.append fun c hc => ?_
      rcases hends ys c hc with rfl | rfl <;> decide
    exact (takes_comma hafter).andThen (hitem.takes _ (hends ys))
  have htext : listing ((x :: xs).map text) = text x ++ xs.flatMap fun y => ',' :: ' ' :: text y := by
    rw [List.map_cons, listing, List.flatMap_map]
  rw [htext]
  refine (((h.1.takes _ (hends xs)).seq hmany).map ?_).rule
  rintro _ ⟨v, vs⟩ ⟨hv, hvs⟩
  rw [List.map_cons, List.map_cons, hv, hvs]

theorem listing_ne_nil {x : List Char} (h : x ≠ []) (xs : List (List Char)) :
    listing (x :: xs) ≠ [] := by
  simp [listing, h]

theorem unblank_listing {xs : List ξ} (h : ∀ y ∈ xs, text y ≠ [] ∧ Unblank (text y)) :
    Unblank (listing (xs.map text)) := by
  cases xs with
  | nil => exact unblank_nil
  | cons x xs =>
    obtain ⟨hne, hx⟩ := h x List.mem_cons_self
    exact hx.append_right hne _

/-- An optional list, of which the text is empty if it has no item. -/
theorem takes_optional {xs : List ξ} (h : ∀ x ∈ xs, WritesItem item text val key x)
    (hrest : Stops rest) (hstop : item.Refuses rest) :
    (Pattern.map (fun _ x => x.getD []) (.opt (listOf item))).Takes (listing (xs.map text)) rest
      fun vs => vs.map val = xs.map key := by
  cases xs with
  | nil =>
    have hrefuses : (listOf item).Refuses rest := Refuses.rule (Refuses.map (Refuses.seq hstop))
    refine hrefuses.opt.map ?_
    rintro _ _ rfl
    rfl
  | cons x xs =>
    refine ((takes_listOf h hrest).opt (listing_ne_nil (h x List.mem_cons_self).ne_nil _)).map ?_
    rintro _ _ ⟨vs, rfl, hvs⟩
    exact hvs

theorem takes_vector {xs : List ξ} (h : ∀ x ∈ xs, WritesItem item text val key x)
    (hstop : item.Refuses (']' :: rest)) :
    (bracketed (listOf item)).Takes (vector (xs.map text)) rest
      fun vs => vs.map val = xs.map key := by
  have hunblank := unblank_listing fun x hx => ⟨(h x hx).ne_nil, (h x hx).unblank⟩
  have hclose : (blanks.andThen (exactly ']')).Takes [']'] rest (· = ']') :=
    (takes_blanks (unblank_cons (by decide))).andThen (takes_exactly ']')
  have hlist := (takes_optional h stops_cons hstop).andSkip hclose
  have hafter : Unblank (listing (xs.map text) ++ [']'] ++ rest) := by
    rw [List.append_assoc]
    exact hunblank.append (unblank_cons (by decide))
  exact (takes_exactly '[').andThen ((takes_blanks hafter).andThen hlist)

/-! ### Symbols, moves, names and numbers -/

theorem refuses_quotedSymbol (h : ∀ c ∈ t.head?, c ≠ '\'') : (quotedSymbol here).Refuses t := by
  refine Refuses.rule (Refuses.map (Refuses.token (Refuses.map (Refuses.seq (refuses_char ?_)))))
  simpa using h

theorem refuses_blankAlias (h : ∀ c ∈ t.head?, c ≠ '_') : (blankAlias here).Refuses t := by
  refine Refuses.rule (Refuses.map (refuses_char ?_))
  simpa using h

theorem refuses_symbol (h : Stops t) : (symbol here).Refuses t := by
  have hclose : ∀ c ∈ t.head?, c ≠ '\'' ∧ c ≠ '_' ∧ isBareSymbol c = false := by
    intro c hc
    rw [h c hc]
    decide
  refine Refuses.rule (Refuses.alt ?_ (Refuses.alt ?_ ?_))
  · exact refuses_quotedSymbol here fun c hc => (hclose c hc).1
  · exact refuses_blankAlias here fun c hc => (hclose c hc).2.1
  · exact Refuses.rule (Refuses.map (refuses_char fun c hc => (hclose c hc).2.2))

theorem isBareSymbol_of_isPlainChar {c : Char} (h : IsPlainChar c) : isBareSymbol c = true := by
  have hwhite := h.space
  have hspecial := h.special
  rw [Text.isSpace, Bool.or_eq_false_iff] at hwhite
  simp only [List.mem_cons, List.not_mem_nil, or_false, not_or] at hspecial
  simp [isBareSymbol, hwhite.1, hspecial]

theorem takes_symbol {s : Ast.Symbol} (h : s.spelling.IsWritable) (rest : List Char) :
    (symbol here).Takes s.spelling.source rest fun v => v.unlocated = s.unlocated := by
  obtain ⟨spelling, loc⟩ := s
  cases h with
  | blank =>
    refine Takes.rule (Takes.alt_right (refuses_quotedSymbol here (by simp [Spelling.source])) ?_)
    refine Takes.alt_left (Takes.rule ((takes_exactly '_').map ?_))
    intro _ _ _
    rfl
  | @bare c plain =>
    have hspecial := plain.special
    simp only [List.mem_cons, List.not_mem_nil, or_false, not_or] at hspecial
    have hsource : (Spelling.bare (String.singleton c)).source = [c] := by simp [Spelling.source]
    dsimp only
    rw [hsource]
    refine Takes.rule (Takes.alt_right (refuses_quotedSymbol here (by simp [hspecial])) ?_)
    refine Takes.alt_right (refuses_blankAlias here (by simp [hspecial])) (Takes.rule ?_)
    refine (takes_char (isBareSymbol_of_isPlainChar plain)).map ?_
    rintro _ _ rfl
    rfl
  | @quoted c inline =>
    have hsource : (Spelling.quoted (String.singleton c)).source = ['\''] ++ ([c] ++ ['\'']) := by
      simp [Spelling.source]
    dsimp only
    rw [hsource]
    have hchar : ((Pattern.char fun _ => true).andSkip (exactly '\'')).Takes ([c] ++ ['\'']) rest (· = c) :=
      (takes_char rfl).andSkip (takes_exactly '\'')
    refine Takes.rule (Takes.alt_left (Takes.rule ?_))
    refine Takes.map ((takes_exactly '\'').andThen hchar).token ?_
    rintro _ _ rfl
    rfl

/-- A symbol begins neither with a blank nor with a bracket. -/
theorem exists_source {s : Spelling} (h : s.IsWritable) :
    ∃ c cs, s.source = c :: cs ∧ Text.isBlank c = false ∧ c ≠ '[' := by
  cases h with
  | blank => exact ⟨'_', [], rfl, by decide, by decide⟩
  | @bare c plain =>
    have hspecial := plain.special
    simp only [List.mem_cons, List.not_mem_nil, or_false, not_or] at hspecial
    exact ⟨c, [], by simp [Spelling.source], Text.isBlank_of_isSpace_eq_false plain.space, hspecial.2.2.2.2.1⟩
  | quoted => exact ⟨'\'', _, rfl, by decide, by decide⟩

theorem unblank_source {s : Spelling} (h : s.IsWritable) : Unblank s.source := by
  obtain ⟨c, cs, hs, hblank, -⟩ := exists_source h
  rw [hs]
  exact unblank_cons hblank

theorem writesItem_symbol {s : Ast.Symbol} (h : s.spelling.IsWritable) :
    WritesItem (symbol here) (fun s : Ast.Symbol => s.spelling.source) Ast.Symbol.unlocated
      Ast.Symbol.unlocated s where
  ne_nil := by
    obtain ⟨c, cs, hs, -⟩ := exists_source h
    rw [hs]
    exact List.cons_ne_nil c cs
  unblank := unblank_source h
  takes rest _ := takes_symbol here h rest

theorem exists_of_move {m : String} (h : m ∈ ["R", "L", "S", "<", ">", "-"]) :
    ∃ c, m = String.singleton c ∧ isDirection c = true ∧ Text.isBlank c = false := by
  simp only [List.mem_cons, List.not_mem_nil, or_false] at h
  rcases h with rfl | rfl | rfl | rfl | rfl | rfl
  exacts [⟨'R', rfl, rfl, rfl⟩, ⟨'L', rfl, rfl, rfl⟩, ⟨'S', rfl, rfl, rfl⟩, ⟨'<', rfl, rfl, rfl⟩,
    ⟨'>', rfl, rfl, rfl⟩, ⟨'-', rfl, rfl, rfl⟩]

theorem writesItem_direction {m : String} (h : m ∈ ["R", "L", "S", "<", ">", "-"]) :
    WritesItem direction String.toList id id m := by
  obtain ⟨c, rfl, hc, hblank⟩ := exists_of_move h
  refine ⟨?_, ?_, fun rest _ => ?_⟩
  · rw [String.toList_singleton]
    exact List.cons_ne_nil c []
  · rw [String.toList_singleton]
    exact unblank_cons hblank
  · rw [String.toList_singleton]
    refine ((takes_char hc).map ?_).rule
    rintro _ _ rfl
    rfl

theorem takes_stateName {name : String} (h : IsStateName name)
    (hrest : ∀ c ∈ rest.head?, isNameTail c = false) : stateName.Takes name.toList rest (· = name) := by
  obtain ⟨c, cs, rfl, hc, hcs⟩ := h
  rw [String.toList_ofList]
  have htail : ∀ x ∈ cs, isNameTail x = true := by
    intro x hx
    simpa [isNameTail, or_assoc] using hcs x hx
  refine Takes.rule (Takes.map (Takes.token ((takes_char hc).seq (takes_run htail hrest))) ?_)
  rintro _ ⟨d, ds⟩ ⟨rfl, rfl⟩
  rfl

theorem takes_index (hne : t ≠ []) (ht : ∀ c ∈ t, Text.isDecimal c = true)
    (hrest : ∀ c ∈ rest.head?, Text.isDecimal c = false) : index.Takes t rest (· = t) := by
  obtain ⟨c, cs, rfl⟩ := List.exists_cons_of_ne_nil hne
  rw [List.forall_mem_cons] at ht
  refine Takes.rule (Takes.map (Takes.token ((takes_char ht.1).seq (takes_run ht.2 hrest))) ?_)
  rintro _ ⟨d, ds⟩ ⟨rfl, rfl⟩
  rfl

theorem digitValue?_of_isDigit {c : Char} (h : c.isDigit = true) :
    Text.digitValue? c = some (c.toNat - 48) := by
  simp only [Char.isDigit, Bool.and_eq_true, decide_eq_true_eq] at h
  have hlow : 48 ≤ c.toNat := h.1
  have hhigh : c.toNat ≤ 57 := h.2
  have hlt : c.toNat < 58 := by omega
  simp [Text.digitValue?, Text.zeros, hlow, hlt]

theorem isDigit_of_mem_numeral {x : Int} {c : Char} (h : c ∈ numeral x) : c.isDigit = true :=
  Nat.isDigit_of_mem_toDigits (by decide) (by decide) h

theorem isDecimal_of_mem_numeral {x : Int} {c : Char} (h : c ∈ numeral x) :
    Text.isDecimal c = true := by
  have hvalue := digitValue?_of_isDigit (isDigit_of_mem_numeral h)
  rw [Text.isDecimal, Text.isDigit, hvalue]
  rfl

/-- The digits of a position denote it. -/
theorem numeral?_numeral {x : Int} (hx : 0 ≤ x) (hlength : (numeral x).length ≤ Text.maxDigits) :
    ∃ n : Nat, Text.numeral? (numeral x) = some n ∧ x = n := by
  refine ⟨x.toNat, ?_, (Int.toNat_of_nonneg hx).symm⟩
  have hdigits : ∀ c ∈ numeral x, Text.isDigit c = true := by
    intro c hc
    rw [Text.isDigit, digitValue?_of_isDigit (isDigit_of_mem_numeral hc)]
    rfl
  have hvalue : Text.ofDigits (numeral x) = Nat.ofDigitChars 10 (numeral x) 0 := by
    refine List.foldl_ext _ _ _ fun n c hc => ?_
    rw [digitValue?_of_isDigit (isDigit_of_mem_numeral hc)]
    rfl
  rw [Text.numeral?, if_pos ⟨hlength, List.all_eq_true.2 hdigits⟩, hvalue, numeral,
    Nat.ofDigitChars_toDigits (by decide) (by decide)]

theorem writesItem_numeral (x : Int) : WritesItem index numeral id numeral x where
  ne_nil := Nat.toDigits_ne_nil
  unblank := by
    intro c hc
    have hdigit := isDigit_of_mem_numeral (List.mem_of_mem_head? hc)
    by_contra hblank
    rw [Bool.not_eq_false] at hblank
    simp only [Text.isBlank, Bool.or_eq_true, beq_iff_eq] at hblank
    rcases hblank with rfl | rfl <;> exact absurd hdigit (by decide)
  takes rest hrest := by
    refine takes_index Nat.toDigits_ne_nil (fun c hc => isDecimal_of_mem_numeral hc) ?_
    intro c hc
    rcases hrest c hc with rfl | rfl
    · rfl
    · rfl

theorem refuses_index (h : Stops t) : index.Refuses t := by
  refine Refuses.rule (Refuses.map (Refuses.token (Refuses.seq (refuses_char ?_))))
  intro c hc
  rw [h c hc]
  rfl

/-! ### Transitions -/

/-- The four parts of a transition line, whatever the first three are made of. -/
theorem takes_parts {a : Pattern α} {b : Pattern β} {d : Pattern δ} {P : α → Prop}
    {Q : Option β → Prop} {R : δ → Prop} {r w m : List Char} {next : String}
    (hread : ∀ rest, a.Takes r rest P)
    (hwrite : ∀ rest, (Pattern.opt b).Takes w (',' :: rest) Q)
    (hmove : ∀ rest, Ends rest → d.Takes m rest R) (hm : Unblank m) (hnext : IsStateName next) :
    (Pattern.seq a (.seq (.opt b)
      (.seq (comma.andThen d) (comma.andThen (stateName.andSkip blanks))))).Takes
      (r ++ (w ++ (", ".toList ++ m ++ (", ".toList ++ next.toList)))) []
      fun x => P x.1 ∧ Q x.2.1 ∧ R x.2.2.1 ∧ x.2.2.2 = next := by
  have hname : (stateName.andSkip blanks).Takes next.toList [] (· = next) := by
    have hend : ∀ c ∈ ([] ++ [] : List Char).head?, isNameTail c = false := by simp
    have htake := (takes_stateName hnext hend).andSkip (takes_blanks unblank_nil)
    rwa [List.append_nil] at htake
  have hunblank : Unblank next.toList := by
    obtain ⟨c, cs, rfl, hc, -⟩ := hnext
    rw [String.toList_ofList]
    refine unblank_cons (Text.isBlank_of_isSpace_eq_false (Text.isSpace_of_isNameTail ?_))
    simp [isNameTail, hc]
  have hlast := (takes_comma (hunblank.append unblank_nil)).andThen hname
  have hmoves : (comma.andThen d).Takes (", ".toList ++ m) (", ".toList ++ next.toList ++ []) R := by
    refine (takes_comma ?_).andThen (hmove _ (by simp [Ends]))
    exact hm.append (unblank_cons (by decide))
  exact (hread _).seq ((hwrite _).seq (hmoves.seq hlast))

/-- What is written stands behind an arrow, or nothing does. -/
theorem takes_write {p : Pattern α} {P : α → Prop} {w : Option (List Char)}
    (h : ∀ v ∈ w, Unblank v ∧ ∀ rest, p.Takes v (',' :: rest) P) (rest : List Char) :
    (Pattern.opt (.rule (arrow.andThen p))).Takes ((w.map (" -> ".toList ++ ·)).getD [])
      (',' :: rest) fun x => x.isSome = w.isSome ∧ ∀ v ∈ x, P v := by
  cases w with
  | none =>
    have hrefuses : arrow.Refuses (',' :: rest) := refuses_arrow (unblank_cons (by decide)) (by simp)
    refine (Refuses.opt (Refuses.rule (Refuses.map (Refuses.seq hrefuses)))).imp ?_
    rintro _ rfl
    exact ⟨rfl, by simp⟩
  | some v =>
    obtain ⟨hv, htake⟩ := h v rfl
    have hafter : Unblank (v ++ ',' :: rest) := hv.append (unblank_cons (by decide))
    have harrow := (takes_arrow hafter).andThen (htake rest)
    refine (harrow.rule.opt (by simp)).imp ?_
    rintro _ ⟨x, rfl, hx⟩
    exact ⟨rfl, by simpa using hx⟩

theorem listing_singleton (x : List Char) : listing [x] = x := by simp [listing]

/-- What has been found of an optional part is what was written. -/
theorem map_eq_of_found {w : Option ξ} {x : Option α} {f : α → γ} {g : ξ → γ}
    (hsome : x.isSome = w.isSome) (h : ∀ v ∈ x, w.map g = some (f v)) : x.map f = w.map g := by
  cases x with
  | none =>
    cases w with
    | none => rfl
    | some _ => cases hsome
  | some v => exact (h v rfl).symm

theorem takes_singleTransition {t : Ast.Transition} (h : t.IsWritable) (hmulti : t.multi = false) :
    (singleTransition here).Takes t.source [] fun v => v.unlocated = t.unlocated := by
  obtain ⟨read, write, moves, next, multi, loc⟩ := t
  dsimp only at hmulti
  subst hmulti
  obtain ⟨s, hs⟩ := List.length_eq_one_iff.1 (h.single rfl)
  obtain ⟨m, hm⟩ := List.length_eq_one_iff.1 (h.moves_length.trans (h.single rfl))
  dsimp only at hs hm
  subst hs hm
  have hread : ∀ rest, (symbol here).Takes s.spelling.source rest (·.unlocated = s.unlocated) :=
    takes_symbol here (h.read s List.mem_cons_self)
  have hmove := writesItem_direction (h.moves m List.mem_cons_self)
  have hwrite : ∀ v ∈ write.map fun w => listing (sources w), Unblank v ∧ ∀ rest,
      (symbol here).Takes v (',' :: rest)
        fun x => write.map (List.map Ast.Symbol.unlocated) = some [x.unlocated] := by
    intro v hv
    obtain ⟨w, rfl, rfl⟩ := Option.map_eq_some_iff.1 hv
    obtain ⟨w, rfl⟩ := List.length_eq_one_iff.1 (h.write_length _ rfl)
    have hw := h.write _ rfl w List.mem_cons_self
    rw [sources, List.map_singleton, listing_singleton]
    refine ⟨unblank_source hw, fun rest => (takes_symbol here hw _).imp ?_⟩
    intro x hx
    rw [hx]
    rfl
  have hparts := takes_parts hread (takes_write hwrite) hmove.takes hmove.unblank h.next
  have hsource : Ast.Transition.source ⟨[s], write, [m], next, false, loc⟩ =
      s.spelling.source ++ (((write.map fun w => listing (sources w)).map (" -> ".toList ++ ·)).getD [] ++
        (", ".toList ++ m.toList ++ (", ".toList ++ next.toList))) := by
    simp [Ast.Transition.source, Ast.Transition.part, sources, listing_singleton, Function.comp_def]
  rw [hsource]
  refine (hparts.map ?_).rule
  rintro _ ⟨x, w, d, q⟩ ⟨hx, ⟨hsome, hw⟩, rfl, rfl⟩
  rw [Option.isSome_map] at hsome
  have hwrites := map_eq_of_found (f := fun v : Ast.Symbol => [v.unlocated]) hsome hw
  dsimp only at hx
  simp only [Ast.Transition.unlocated, List.map_singleton, hx, Option.map_map, Function.comp_def, hwrites, id]

theorem takes_symbolVector {row : List Ast.Symbol} (h : ∀ s ∈ row, s.spelling.IsWritable)
    (rest : List Char) :
    (symbolVector here).Takes (vector (sources row)) rest
      fun vs => vs.map Ast.Symbol.unlocated = row.map Ast.Symbol.unlocated :=
  (takes_vector (fun s hs => writesItem_symbol here (h s hs)) (refuses_symbol here stops_cons)).rule

theorem takes_multiTransition {t : Ast.Transition} (h : t.IsWritable) (hmulti : t.multi = true) :
    (multiTransition here).Takes t.source [] fun v => v.unlocated = t.unlocated := by
  obtain ⟨read, write, moves, next, multi, loc⟩ := t
  dsimp only at hmulti
  subst hmulti
  have hwrite : ∀ v ∈ write.map fun w => vector (sources w), Unblank v ∧ ∀ rest,
      (symbolVector here).Takes v (',' :: rest) fun x =>
        write.map (List.map Ast.Symbol.unlocated) = some (x.map Ast.Symbol.unlocated) := by
    intro v hv
    obtain ⟨w, rfl, rfl⟩ := Option.map_eq_some_iff.1 hv
    refine ⟨unblank_cons (by decide), fun rest => (takes_symbolVector here (h.write w rfl) _).imp ?_⟩
    intro x hx
    rw [hx]
    rfl
  have hmove : ∀ rest, Ends rest → directionVector.Takes (vector (moves.map String.toList)) rest
      (·.map id = moves.map id) := by
    intro rest _
    have hstop : direction.Refuses (']' :: rest) :=
      Refuses.rule (Refuses.map (refuses_char (by simp [isDirection])))
    exact (takes_vector (fun m hm => writesItem_direction (h.moves m hm)) hstop).rule
  have hread : ∀ rest, (symbolVector here).Takes (vector (sources read)) rest
      (·.map Ast.Symbol.unlocated = read.map Ast.Symbol.unlocated) := takes_symbolVector here h.read
  have hparts := takes_parts hread (takes_write hwrite) hmove (unblank_cons (by decide)) h.next
  have hsource : Ast.Transition.source ⟨read, write, moves, next, true, loc⟩ =
      vector (sources read) ++
        (((write.map fun w => vector (sources w)).map (" -> ".toList ++ ·)).getD [] ++
        (", ".toList ++ vector (moves.map String.toList) ++ (", ".toList ++ next.toList))) := by
    simp [Ast.Transition.source, Ast.Transition.part, Function.comp_def]
  rw [hsource]
  refine (hparts.map ?_).rule
  rintro _ ⟨x, w, d, q⟩ ⟨hx, ⟨hsome, hw⟩, hd, rfl⟩
  rw [Option.isSome_map] at hsome
  have hwrites := map_eq_of_found (f := List.map Ast.Symbol.unlocated) hsome hw
  rw [List.map_id, List.map_id] at hd
  dsimp only at hx hd
  simp only [Ast.Transition.unlocated, hx, hd, hwrites]

/-- **A transition line is read back.** -/
theorem takes_transition {t : Ast.Transition} (h : t.IsWritable) :
    (transition here).Takes t.source [] fun v => v.unlocated = t.unlocated := by
  cases hmulti : t.multi with
  | true => exact (Takes.alt_left (takes_multiTransition here h hmulti)).rule
  | false =>
    -- a line without vectors does not begin with a bracket
    refine (Takes.alt_right ?_ (takes_singleTransition here h hmulti)).rule
    refine Refuses.rule (Refuses.map (Refuses.seq (Refuses.rule (Refuses.map (Refuses.seq
      (refuses_char ?_))))))
    obtain ⟨s, hs⟩ := List.length_eq_one_iff.1 (h.single hmulti)
    obtain ⟨c, cs, hsource, -, hc⟩ := exists_source (h.read s (by simp [hs]))
    simpa [Ast.Transition.source, Ast.Transition.part, hmulti, hs, sources, listing, hsource] using hc

/-! ### The other lines -/

/-- A value behind a space. -/
theorem takes_value {p : Pattern α} {P : α → Prop} (h : p.Takes t [] P) (ht : Unblank t) :
    (blanks.andThen (p.andSkip blanks)).Takes (' ' :: t) [] P := by
  have hvalue : (p.andSkip blanks).Takes (t ++ []) [] P := Takes.andSkip h (takes_blanks unblank_nil)
  rw [List.append_nil] at hvalue
  exact (takes_blank (ht.append unblank_nil)).andThen hvalue

theorem takes_tapeValue {row : List Ast.Symbol} (h : ∀ s ∈ row, s.spelling.IsWritable) :
    (tapeValue here).Takes (if row = [] then [] else ' ' :: listing (sources row)) []
      fun vs => vs.map Ast.Symbol.unlocated = row.map Ast.Symbol.unlocated := by
  have hitems := fun s hs => writesItem_symbol here (h s hs)
  have hlist := takes_optional hitems stops_nil (refuses_symbol here stops_nil)
  split
  · next hrow =>
    subst hrow
    have hvalue := Takes.andSkip (u := []) hlist (takes_blanks unblank_nil)
    exact (Takes.andThen (t := []) (takes_blanks unblank_nil) hvalue).rule
  · have hunblank := unblank_listing fun s hs => ⟨(hitems s hs).ne_nil, (hitems s hs).unblank⟩
    exact (takes_value hlist hunblank).rule

theorem takes_tapeRow {row : List Ast.Symbol} (h : ∀ s ∈ row, s.spelling.IsWritable) :
    (tapeRow here).Takes (vector (sources row)) []
      fun vs => vs.map Ast.Symbol.unlocated = row.map Ast.Symbol.unlocated := by
  have hrow := Takes.andSkip (u := []) (takes_symbolVector here h _)
    (takes_blanks unblank_nil)
  rw [List.append_nil] at hrow
  exact hrow.rule

theorem takes_headValue (x : Int) : headValue.Takes (' ' :: numeral x) [] (· = numeral x) :=
  (takes_value ((writesItem_numeral x).takes [] stops_nil.ends) (writesItem_numeral x).unblank).rule

theorem takes_headsValue (xs : List Int) :
    headsValue.Takes (' ' :: vector (xs.map numeral)) [] (· = xs.map numeral) := by
  have hstop : index.Refuses [']'] := refuses_index stops_cons
  have hvector := takes_vector (fun x (_ : x ∈ xs) => writesItem_numeral x) hstop
  refine (takes_value (hvector.imp ?_) (unblank_cons (by decide))).rule
  intro vs hvs
  rwa [List.map_id] at hvs

theorem takes_blankValue {c : Char} (h : Text.isLineBreak c = false) :
    (blankValue here).Takes (' ' :: '\'' :: ([c] ++ ['\''])) []
      (·.spelling.value = String.singleton c) := by
  have hwritable : (Spelling.quoted (String.singleton c)).IsWritable := .quoted h
  have hsymbol := takes_symbol here (s := ⟨.quoted (String.singleton c), {}⟩) hwritable []
  have hsource : (Spelling.quoted (String.singleton c)).source = '\'' :: ([c] ++ ['\'']) := by
    simp [Spelling.source]
  rw [hsource] at hsymbol
  refine (takes_value (hsymbol.imp ?_) (unblank_cons (by decide))).rule
  intro v hv
  have hspelling : v.spelling = .quoted (String.singleton c) := congrArg Ast.Symbol.spelling hv
  rw [hspelling]
  rfl

theorem takes_stateHeader {name : String} (h : IsStateName name) :
    stateHeader.Takes (name.toList ++ [':']) [] (· = name) := by
  have hcolon : ((exactly ':').andSkip blanks).Takes ([':'] ++ []) [] (· = ':') :=
    (takes_exactly ':').andSkip (takes_blanks unblank_nil)
  have hend := Takes.andThen (t := []) (takes_blanks (unblank_cons (by decide))) hcolon
  exact ((takes_stateName h (by simp; rfl)).andSkip hend).rule

end TapeLang.LineRule
