import Mathlib
import TapeLang.Diagnostic.Suppression
import TapeLang.Proofs.PhysicalLine

/-!
# What a text silences

Loading a text adds, for the first suppression comment of each of its physical lines, the identifiers that
it lists, on that line and on the next.

* `isIdChar_of_directiveIds?`: the listed identifiers have letters, digits, underscores and hyphens only,
  so none of them stands for all;
* `Suppressions.mem_load`: what is silenced on a line after a text has been loaded;
* `Suppressions.covers_load`: which diagnostics are silenced by a text.
-/

namespace TapeLang

/-! ### The identifiers of a comment -/

theorem isIdChar_of_idsFrom {fuel : Nat} {s id : List Char} (h : id ∈ idsFrom fuel s) :
    ∀ c ∈ id, isIdChar c = true := by
  induction fuel generalizing s with
  | zero => cases h
  | succ fuel ih =>
    simp only [idsFrom] at h
    split at h
    · cases h
    · rcases List.mem_cons.1 h with rfl | h
      · exact fun c hc => List.mem_takeWhile_imp hc
      · split at h
        · exact ih h
        · cases h

theorem isIdChar_of_idsAfterSign? {s id : List Char} {ids : List (List Char)}
    (h : idsAfterSign? s = some ids) (hid : id ∈ ids) : ∀ c ∈ id, isIdChar c = true := by
  unfold idsAfterSign? at h
  split at h
  · cases h
  · next rest _ =>
    split at h
    · cases h
    · cases h
      exact isIdChar_of_idsFrom hid

theorem isIdChar_of_directiveIds? {s id : List Char} {ids : List (List Char)}
    (h : directiveIds? s = some ids) (hid : id ∈ ids) : ∀ c ∈ id, isIdChar c = true := by
  induction s with
  | nil => cases h
  | cons c s ih =>
    rw [directiveIds?] at h
    split at h
    · next ids' hids =>
      cases h
      split at hids
      · exact isIdChar_of_idsAfterSign? hids hid
      · cases hids
    · exact ih h

/-- The identifier that stands for all cannot be listed. -/
theorem star_notMem_of_directiveIds? {s : List Char} {ids : List (List Char)}
    (h : directiveIds? s = some ids) : "*".toList ∉ ids := fun hid =>
  absurd (isIdChar_of_directiveIds? h hid '*' (by simp)) (by decide)

/-! ### Loading -/

namespace Suppressions

variable {s : Suppressions} {k : Int} {id : String}

theorem mem_addDirective {line : Int} {ids : List (List Char)} :
    (k, id) ∈ (s.addDirective line ids).inline ↔
      (k, id) ∈ s.inline ∨ id.toList ∈ ids ∧ (k = line ∨ k = line + 1) := by
  unfold addDirective
  induction ids generalizing s with
  | nil => simp
  | cons word ids ih =>
    have hword : id = String.ofList word ↔ id.toList = word := by
      rw [← String.toList_inj, String.toList_ofList]
    rw [List.foldl_cons, ih]
    simp only [addInline, List.mem_cons, Prod.mk.injEq, hword]
    tauto

theorem everywhere_addDirective (s : Suppressions) (line : Int) (ids : List (List Char)) :
    (s.addDirective line ids).everywhere = s.everywhere := by
  unfold addDirective
  induction ids generalizing s with
  | nil => rfl
  | cons word ids ih => rw [List.foldl_cons, ih]; rfl

theorem everywhere_loadFrom (s : Suppressions) (n : Nat) (raws : List (List Char)) :
    (s.loadFrom n raws).everywhere = s.everywhere := by
  induction raws generalizing s n with
  | nil => rfl
  | cons raw raws ih =>
    rw [loadFrom]
    split
    · rw [ih, everywhere_addDirective]
    · rw [ih]

theorem mem_loadFrom {n : Nat} {raws : List (List Char)} :
    (k, id) ∈ (s.loadFrom n raws).inline ↔
      (k, id) ∈ s.inline ∨ ∃ i raw ids, raws[i]? = some raw ∧ directiveIds? raw = some ids ∧
        id.toList ∈ ids ∧ (k = (n + i : Nat) ∨ k = (n + i : Nat) + 1) := by
  induction raws generalizing s n with
  | nil => simp [loadFrom]
  | cons raw raws ih =>
    -- the first line adds its own identifiers, the others are those of the induction
    have hfirst : (k, id) ∈ (s.loadFrom n (raw :: raws)).inline ↔
        ((k, id) ∈ s.inline ∨ ∃ ids, directiveIds? raw = some ids ∧ id.toList ∈ ids ∧
          (k = (n : Nat) ∨ k = (n : Nat) + 1)) ∨
        ∃ i raw' ids, raws[i]? = some raw' ∧ directiveIds? raw' = some ids ∧ id.toList ∈ ids ∧
          (k = (n + 1 + i : Nat) ∨ k = (n + 1 + i : Nat) + 1) := by
      rw [loadFrom]
      cases h : directiveIds? raw with
      | none => simp [ih]
      | some ids => simp [ih, mem_addDirective]
    rw [hfirst, or_assoc]
    refine or_congr_right ⟨?_, ?_⟩
    · rintro (⟨ids, hids, hid, hk⟩ | ⟨i, raw', ids, hi, hids, hid, hk⟩)
      · exact ⟨0, raw, ids, rfl, hids, hid, hk⟩
      · exact ⟨i + 1, raw', ids, hi, hids, hid, by omega⟩
    · rintro ⟨i, raw', ids, hi, hids, hid, hk⟩
      cases i with
      | zero =>
        cases hi
        exact .inl ⟨ids, hids, hid, hk⟩
      | succ i => exact .inr ⟨i, raw', ids, hi, hids, hid, by omega⟩

/-- **What is silenced on a line after a text has been loaded.** -/
theorem mem_load {text : List Char} :
    (k, id) ∈ (s.load text).inline ↔
      (k, id) ∈ s.inline ∨ ∃ m raw ids, Text.line? text m = some raw ∧ directiveIds? raw = some ids ∧
        id.toList ∈ ids ∧ (k = m ∨ k = m + 1) := by
  rw [load, mem_loadFrom]
  refine or_congr_right ⟨?_, ?_⟩
  · rintro ⟨i, raw, ids, hi, hids, hid, hk⟩
    exact ⟨i + 1, raw, ids, hi, hids, hid, by omega⟩
  · rintro ⟨m, raw, ids, hm, hids, hid, hk⟩
    cases m with
    | zero => cases hm
    | succ i => exact ⟨i, raw, ids, hm, hids, hid, by omega⟩

/-- **A diagnostic on a line is silenced by a text exactly if the line or the one before it lists its
identifier,** if it is not silenced everywhere. -/
theorem covers_load {suppress : List String} {text : List Char} {d : Diagnostic} {l : Location}
    (hl : d.location = some l) :
    (load { everywhere := suppress } text).covers d = true ↔
      (d.id ∈ suppress ∨ "*" ∈ suppress) ∨ ∃ (m : Nat) (raw : List Char) (ids : List (List Char)),
        (l.line = m ∨ l.line = m + 1) ∧ Text.line? text m = some raw ∧ directiveIds? raw = some ids ∧
          d.id.toList ∈ ids := by
  have hstar : (l.line, "*") ∉ (load { everywhere := suppress } text).inline := by
    rw [mem_load]
    rintro (h | ⟨m, raw, ids, -, hids, hid, -⟩)
    · cases h
    · exact star_notMem_of_directiveIds? hids hid
  have heverywhere : (load { everywhere := suppress } text).everywhere = suppress :=
    everywhere_loadFrom _ _ _
  simp only [covers, hl, heverywhere, Bool.or_eq_true, List.contains_iff_mem, hstar, or_false,
    mem_load, List.not_mem_nil, false_or]
  refine or_congr_right ⟨?_, ?_⟩
  · rintro ⟨m, raw, ids, hm, hids, hid, hk⟩
    exact ⟨m, raw, ids, hk, hm, hids, hid⟩
  · rintro ⟨m, raw, ids, hk, hm, hids, hid⟩
    exact ⟨m, raw, ids, hm, hids, hid, hk⟩

end Suppressions

end TapeLang
