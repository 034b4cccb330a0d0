import Mathlib
import TapeLang.Proofs.Blocks
import TapeLang.Proofs.Grammar

/-!
# The language of lines

What the rules of a line accept, as a grammar, and which values are read from it. A value can still be
refused: a transition for its vectors, and a head position for a digit without a value.

* `Ast.Transition.IsEven`, `Ast.Transition.vectorViolation?_eq_none_iff`: the vectors of a transition;
* `Denotes`, `readIndex_eq_ok_iff_denotes`: the number of a head position;
* `rules_read_as_grammar`: all rules.
-/

namespace TapeLang

namespace LineRule

variable {here : Nat → Location} {t : List Char}

/-! ### Vectors -/

/-- A transition without vectors has one symbol to read and one move. -/
theorem vectorViolation?_of_singleTransition {n : Nat} {v : Ast.Transition}
    (h : (singleTransition here).Derives n t v) : v.vectorViolation? = none := by
  obtain ⟨x, -, rfl⟩ := h
  rfl

theorem multi_of_multiTransition {n : Nat} {v : Ast.Transition}
    (h : (multiTransition here).Derives n t v) : v.multi = true := by
  obtain ⟨x, -, rfl⟩ := h
  rfl

end LineRule

/-- The vectors of a transition are not empty and equally long. -/
def Ast.Transition.IsEven (t : Ast.Transition) : Prop :=
  t.read ≠ [] ∧ t.moves.length = t.read.length ∧ ∀ row ∈ t.write, row.length = t.read.length

theorem Ast.Transition.vectorViolation?_eq_none_iff {t : Ast.Transition} (h : t.multi = true) :
    t.vectorViolation? = none ↔ t.IsEven := by
  obtain ⟨read, write, moves, next, multi, loc⟩ := t
  obtain rfl : multi = true := h
  cases write <;> cases read <;> simp [vectorViolation?, IsEven]

theorem Ast.Transition.code_of_vectorViolation? {t : Ast.Transition} {v : Violation}
    (h : t.vectorViolation? = some v) : v.code = .literalArity := by
  simp only [vectorViolation?] at h
  split at h
  · cases h
  · split at h
    · cases h; rfl
    · split at h
      · cases h
      · cases h; rfl

/-! ### Head positions -/

/-- The digits have values and denote the number in the decimal system. -/
def Denotes (digits : List Char) (x : Int) : Prop :=
  ∃ values : List Nat, List.Forall₂ (fun c d => Text.digitValue? c = some d) digits values ∧
    x = (Nat.ofDigits 10 values.reverse : Nat)

theorem foldl_digits {digits : List Char} {values : List Nat}
    (h : List.Forall₂ (fun c d => Text.digitValue? c = some d) digits values) (start : Nat) :
    digits.foldl (fun n c => 10 * n + (Text.digitValue? c).getD 0) start =
      Nat.ofDigits 10 values.reverse + 10 ^ values.length * start := by
  induction h generalizing start with
  | nil => simp
  | @cons c d digits values hd _ ih =>
    rw [List.foldl_cons, ih, hd, List.reverse_cons, Nat.ofDigits_append, Nat.ofDigits_singleton,
      List.length_reverse, List.length_cons, Option.getD_some]
    ring

theorem ofDigits_of_forall₂ {digits : List Char} {values : List Nat}
    (h : List.Forall₂ (fun c d => Text.digitValue? c = some d) digits values) :
    Text.ofDigits digits = Nat.ofDigits 10 values.reverse := by
  rw [Text.ofDigits, foldl_digits h]
  simp

/-- A run of digits that is not too long is read as the number that it denotes, if there is one. -/
theorem readIndex_eq_ok_iff_denotes {digits : List Char} (h : digits.length ≤ Text.maxDigits)
    {x : Int} : Reader.readIndex digits = .ok x ↔ Denotes digits x := by
  rw [Reader.readIndex_eq_ok_iff]
  constructor
  · rintro ⟨n, hn, rfl⟩
    have hdigits : digits.all Text.isDigit = true ∧ n = Text.ofDigits digits := by
      unfold Text.numeral? at hn
      split at hn
      · next hall => exact ⟨hall.2, (Option.some.inj hn).symm⟩
      · cases hn
    have hvalues : List.Forall₂ (fun c d => Text.digitValue? c = some d) digits
        (digits.map fun c => (Text.digitValue? c).getD 0) := by
      rw [List.forall₂_map_right_iff, List.forall₂_same]
      intro c hc
      obtain ⟨d, hd⟩ := Option.isSome_iff_exists.1 (List.all_eq_true.1 hdigits.1 c hc)
      rw [hd, Option.getD_some]
    exact ⟨_, hvalues, by rw [hdigits.2, ofDigits_of_forall₂ hvalues]⟩
  · rintro ⟨values, hvalues, rfl⟩
    have hall : digits.all Text.isDigit = true := by
      rw [List.all_eq_true]
      intro c hc
      obtain ⟨d, -, hd⟩ := exists_of_forall₂_of_mem hvalues.flip hc
      rw [Text.isDigit, hd, Option.isSome_some]
    refine ⟨Nat.ofDigits 10 values.reverse, ?_, rfl⟩
    rw [Text.numeral?, if_pos ⟨h, hall⟩, ofDigits_of_forall₂ hvalues]

/-- It is refused exactly if one of its digits has no value. -/
theorem readIndex_eq_error_iff {digits : List Char} (h : digits.length ≤ Text.maxDigits) :
    Reader.readIndex digits = .error (.badNumeral digits) ↔
      ∃ c ∈ digits, Text.digitValue? c = none := by
  have hnone : Reader.readIndex digits = .error (.badNumeral digits) ↔
      Text.numeral? digits = none := by
    unfold Reader.readIndex
    cases Text.numeral? digits <;> simp
  rw [hnone, numeral?_eq_none_iff]
  simp [Nat.not_lt.2 h]

/-! ### All rules -/

open LineRule in
/-- **The rules of a line are read as a grammar.** A text is accepted by a rule exactly if the grammar
derives it, and the value is that of the one derivation in which underscores without quotes are aliases of
the blank symbol. A transition with vectors is refused exactly if they are empty or not equally long, and
one without vectors never. A head position that is not too long is the number that it denotes in the decimal
system, and is refused exactly if a digit has no value. -/
theorem rules_read_as_grammar (here : Nat → Location) (s : List Char) :
    (transition here).ReadsAsGrammar Ast.Transition.IsAliased s ∧
    stateHeader.ReadsAsGrammar (fun _ => True) s ∧
    (tapeValue here).ReadsAsGrammar (fun row => ∀ x ∈ row, x.IsAliased) s ∧
    (tapeRow here).ReadsAsGrammar (fun row => ∀ x ∈ row, x.IsAliased) s ∧
    headValue.ReadsAsGrammar (fun _ => True) s ∧
    headsValue.ReadsAsGrammar (fun _ => True) s ∧
    (blankValue here).ReadsAsGrammar Ast.Symbol.IsAliased s ∧
    (∀ t, (multiTransition here).Derives 0 s t →
      ((∃ v, t.vectorViolation? = some v ∧ v.code = .literalArity) ↔ ¬t.IsEven)) ∧
    (∀ t, (singleTransition here).Derives 0 s t → t.vectorViolation? = none) ∧
    ∀ ds, (headValue.Derives 0 s ds ∨ ∃ dss, headsValue.Derives 0 s dss ∧ ds ∈ dss) →
      ds.length ≤ Text.maxDigits →
      (∀ x, Reader.readIndex ds = .ok x ↔ Denotes ds x) ∧
        (Reader.readIndex ds = .error (.badNumeral ds) ↔ ∃ c ∈ ds, Text.digitValue? c = none) := by
  refine ⟨?_, ?_, ?_, ?_, ?_, ?_, ?_, fun t ht => ?_, ?_, fun ds _ hlength => ?_⟩
  · exact commits_transition.readsAsGrammar Ast.Transition.isAliased_aliased
      (fun _ h => h.aliased_eq) s
  · exact commits_stateHeader.readsAsGrammar (fun _ => trivial) (fun _ _ => rfl) s
  · exact commits_tapeValue.readsAsGrammar Ast.isAliased_map_aliased (fun _ => Ast.map_aliased_eq) s
  · exact commits_tapeRow.readsAsGrammar Ast.isAliased_map_aliased (fun _ => Ast.map_aliased_eq) s
  · exact commits_headValue.readsAsGrammar (fun _ => trivial) (fun _ _ => rfl) s
  · exact commits_headsValue.readsAsGrammar (fun _ => trivial) (fun _ _ => rfl) s
  · exact commits_blankValue.readsAsGrammar Ast.Symbol.isAliased_aliased (fun _ h => h.aliased_eq) s
  · rw [← Ast.Transition.vectorViolation?_eq_none_iff (multi_of_multiTransition ht),
      ← ne_eq, Option.ne_none_iff_exists']
    constructor
    · rintro ⟨v, hv, -⟩
      exact ⟨v, hv⟩
    · rintro ⟨v, hv⟩
      exact ⟨v, hv, Ast.Transition.code_of_vectorViolation? hv⟩
  · exact fun t ht => vectorViolation?_of_singleTransition ht
  · exact ⟨fun _ => readIndex_eq_ok_iff_denotes hlength, readIndex_eq_error_iff hlength⟩

/-- Two symbols to read, one to write and two moves. -/
def unevenTransition : Ast.Transition where
  read := [⟨.bare "a", {}⟩, ⟨.blank, {}⟩]
  write := some [⟨.quoted "#", {}⟩]
  moves := ["R", "-"]
  next := "t"
  multi := true

/-- Vectors that are not equally long are derived, and refused for this reason; a number may have digits of
several scripts. -/
theorem rules_read_as_grammar_uneven :
    ((LineRule.transition fun _ => {}).parse "[a, _] -> ['#'], [R, -], t".toList = .ok unevenTransition ∧
      ∃ v, unevenTransition.vectorViolation? = some v ∧ v.code = .literalArity) ∧
    LineRule.headsValue.parse " [ 1٢ ,3]".toList = .ok ["1٢".toList, "3".toList] ∧
      Reader.readIndex "1٢".toList = .ok 12 := by
  have hmulti : (LineRule.multiTransition fun _ => {}).Derives 0 "[a, _] -> ['#'], [R, -], t".toList
      unevenTransition := Pattern.derives_of_parse (by rfl)
  have heads : LineRule.headsValue.Derives 0 " [ 1٢ ,3]".toList ["1٢".toList, "3".toList] :=
    Pattern.derives_of_parse (by rfl)
  obtain ⟨htransition, -, -, -, -, -, -, huneven, -⟩ :=
    rules_read_as_grammar (fun _ => {}) "[a, _] -> ['#'], [R, -], t".toList
  obtain ⟨-, -, -, -, -, hheads, -, -, -, hnumber⟩ :=
    rules_read_as_grammar (fun _ => {}) " [ 1٢ ,3]".toList
  refine ⟨⟨?_, ?_⟩, ?_, ?_⟩
  · refine (htransition.value _).2 ⟨.inl hmulti, ?_, ?_⟩
    · simp [unevenTransition, Ast.Symbol.IsAliased]
    · simp [unevenTransition, Ast.Symbol.IsAliased]
  · exact (huneven _ hmulti).2 (by simp [Ast.Transition.IsEven, unevenTransition])
  · exact (hheads.value _).2 ⟨heads, trivial⟩
  · refine ((hnumber _ (.inr ⟨_, heads, List.mem_cons_self⟩) (by decide)).1 12).2 ⟨[1, 2], ?_, by decide⟩
    exact .cons rfl (.cons rfl .nil)

/-- A digit without a value is derived as a head position, and is refused though it is alone. -/
theorem lone_digit_without_value :
    LineRule.headValue.Derives 0 ['𑽐'] ['𑽐'] ∧ LineRule.headValue.parse ['𑽐'] = .ok ['𑽐'] ∧
      ['𑽐'].length ≤ Text.maxDigits ∧ Reader.readIndex ['𑽐'] = .error (.badNumeral ['𑽐']) := by
  have hparse : LineRule.headValue.parse ['𑽐'] = .ok ['𑽐'] := by rfl
  exact ⟨Pattern.derives_of_parse hparse, hparse, by decide, by rfl⟩

end TapeLang
