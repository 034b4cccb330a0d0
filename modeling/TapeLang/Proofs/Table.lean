import Mathlib
import TapeLang.Table

/-!
# The entries of a table

Looking up a key finds the one entry that stands under it, and inserting adds one entry.

* `Table.find?_eq_some_iff`, `Table.find?_eq_none_iff`, `Table.contains_iff`: what is found;
* `Table.mem_entries_insert`, `Table.keys_insert`, `Table.find?_insert`: the entries after an insertion;
* `Table.keys_ofList`, `Table.find?_ofList`, `Table.entries_ofList`: the entries after many insertions.
-/

namespace TapeLang

namespace Table

universe u v

variable {κ : Type u} {α : Type v} [DecidableEq κ]

theorem mem_putEntry {k : κ} {a : α} {es : List (κ × α)} {e : κ × α} (h : e ∈ putEntry k a es) :
    e = (k, a) ∨ e ∈ es := by
  induction es with
  | nil => exact .inl (List.mem_singleton.1 h)
  | cons e' es ih =>
    simp only [putEntry] at h
    split at h
    · exact (List.mem_cons.1 h).imp_right (List.mem_cons_of_mem e')
    · rcases List.mem_cons.1 h with rfl | h
      · exact .inr List.mem_cons_self
      · exact (ih h).imp_right (List.mem_cons_of_mem e')

theorem mem_entries_insert {t : Table κ α} {k : κ} {a : α} {e : κ × α}
    (h : e ∈ (t.insert k a).entries) : e = (k, a) ∨ e ∈ t.entries := mem_putEntry h

/-- A key that is already there keeps its place, and a new one comes last. -/
theorem keys_insert (t : Table κ α) (k : κ) (a : α) :
    (t.insert k a).keys = if k ∈ t.keys then t.keys else t.keys ++ [k] := map_fst_putEntry k a t.entries

/-- The first key stays the first key. -/
theorem head?_keys_insert {t : Table κ α} {k first : κ} {a : α} (h : t.keys.head? = some first) :
    (t.insert k a).keys.head? = some first := by
  rw [keys_insert]
  split
  · exact h
  · rw [List.head?_append, h]
    rfl

/-- What is found under a key is the value of its entry. -/
theorem find?_eq_some_iff {t : Table κ α} {k : κ} {a : α} : t.find? k = some a ↔ (k, a) ∈ t.entries := by
  unfold find?
  constructor
  · intro h
    obtain ⟨⟨k', a'⟩, he, rfl⟩ := Option.map_eq_some_iff.1 h
    have hk : k' = k := by simpa using List.find?_some he
    exact hk ▸ List.mem_of_find?_eq_some he
  · intro h
    -- the first entry under the key is this one, since no key occurs twice
    obtain ⟨⟨k', a'⟩, he⟩ : ∃ e, (t.entries.find? fun e => e.1 = k) = some e := by
      rw [← Option.isSome_iff_exists, List.find?_isSome]
      exact ⟨(k, a), h, by simp⟩
    have hk : k' = k := by simpa using List.find?_some he
    have heq := List.inj_on_of_nodup_map t.nodup (List.mem_of_find?_eq_some he) h hk
    rw [he, heq]
    rfl

theorem find?_eq_none_iff {t : Table κ α} {k : κ} : t.find? k = none ↔ ∀ a, (k, a) ∉ t.entries := by
  constructor
  · intro h a ha
    rw [find?_eq_some_iff.2 ha] at h
    cases h
  · intro h
    rw [Option.eq_none_iff_forall_not_mem]
    exact fun a ha => h a (find?_eq_some_iff.1 ha)

theorem find?_eq_none_iff_not_mem_keys {t : Table κ α} {k : κ} : t.find? k = none ↔ k ∉ t.keys := by
  rw [find?_eq_none_iff]
  simp [keys]

theorem contains_iff {t : Table κ α} {k : κ} : t.contains k = true ↔ k ∈ t.keys := by
  simp [contains, keys]

/-! ### Insertions -/

theorem putEntry_of_not_mem {k : κ} (a : α) {es : List (κ × α)} (h : k ∉ es.map Prod.fst) :
    putEntry k a es = es ++ [(k, a)] := by
  induction es with
  | nil => rfl
  | cons e es ih =>
    rw [List.map_cons, List.mem_cons, not_or] at h
    rw [putEntry, if_neg (Ne.symm h.1), ih h.2, List.cons_append]

theorem entries_insert_of_not_mem {t : Table κ α} {k : κ} (a : α) (h : k ∉ t.keys) :
    (t.insert k a).entries = t.entries ++ [(k, a)] := putEntry_of_not_mem a h

theorem find?_putEntry (k : κ) (a : α) (es : List (κ × α)) (k' : κ) :
    ((putEntry k a es).find? fun e => e.1 = k').map Prod.snd =
      if k = k' then some a else (es.find? fun e => e.1 = k').map Prod.snd := by
  induction es with
  | nil => by_cases h : k = k' <;> simp [putEntry, h]
  | cons e es ih =>
    by_cases hk : e.1 = k
    · by_cases h : k = k' <;> simp [putEntry, hk, h]
    · by_cases hk' : e.1 = k'
      · have h : k ≠ k' := fun h => hk (hk'.trans h.symm)
        simp [putEntry, hk', h, h.symm]
      · simpa [putEntry, hk, hk'] using ih

/-- An insertion changes what is found under its key and nothing else. -/
theorem find?_insert (t : Table κ α) (k : κ) (a : α) (k' : κ) :
    (t.insert k a).find? k' = if k = k' then some a else t.find? k' := find?_putEntry k a t.entries k'

theorem ofList_concat (ps : List (κ × α)) (e : κ × α) :
    ofList (ps ++ [e]) = (ofList ps).insert e.1 e.2 := by
  simp [ofList]

/-- The keys of a table are those of its pairs, each at its first place. -/
theorem keys_ofList (ps : List (κ × α)) : (ofList ps).keys = (ps.map Prod.fst).eraseDups := by
  induction ps using List.reverseRecOn with
  | nil => rfl
  | append_singleton ps e ih =>
    rw [ofList_concat, keys_insert, ih, List.map_append, List.eraseDups_append]
    by_cases h : e.1 ∈ ps.map Prod.fst <;> simp [h, List.mem_eraseDups, List.removeAll, List.eraseDups_cons]

/-- What is found under a key is the value of its last pair. -/
theorem find?_ofList (ps : List (κ × α)) (k : κ) :
    (ofList ps).find? k = (ps.reverse.find? fun e => e.1 = k).map Prod.snd := by
  induction ps using List.reverseRecOn with
  | nil => rfl
  | append_singleton ps e ih =>
    rw [ofList_concat, find?_insert, ih, List.reverse_concat, List.find?_cons]
    by_cases h : e.1 = k <;> simp [h]

/-- Pairs with distinct keys are the entries of their table. -/
theorem entries_ofList {ps : List (κ × α)} (h : (ps.map Prod.fst).Nodup) : (ofList ps).entries = ps := by
  induction ps using List.reverseRecOn with
  | nil => rfl
  | append_singleton ps e ih =>
    rw [List.map_append, List.map_singleton, List.nodup_append] at h
    obtain ⟨hps, -, hne⟩ := h
    have hfresh : e.1 ∉ (ofList ps).keys := by
      rw [keys_ofList, List.mem_eraseDups]
      exact fun hmem => hne e.1 hmem e.1 (List.mem_singleton_self _) rfl
    rw [ofList_concat, entries_insert_of_not_mem _ hfresh, ih hps]

end Table

end TapeLang
