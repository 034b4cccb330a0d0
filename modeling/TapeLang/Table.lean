/-!
# Tables in insertion order

A `Table` maps keys to values and remembers the order in which the keys came in. Inserting under a
key that is already there replaces the value and keeps the place.

* `Table.insert`, `Table.ofList`: building a table.
* `Table.find?`, `Table.contains`: look-up.
* `Table.keys`, `Table.values`: the contents in order.
-/

namespace TapeLang

universe u v

/-- A map with distinct keys in insertion order. -/
structure Table (κ : Type u) (α : Type v) where
  /-- The entries, in the order in which their keys came in. -/
  entries : List (κ × α)
  /-- No key occurs twice. -/
  nodup : (entries.map Prod.fst).Nodup

namespace Table

variable {κ : Type u} {α : Type v}

/-- The keys, in insertion order. -/
def keys (t : Table κ α) : List κ := t.entries.map Prod.fst

/-- The values, in insertion order of their keys. -/
def values (t : Table κ α) : List α := t.entries.map Prod.snd

/-- The number of entries. -/
def size (t : Table κ α) : Nat := t.entries.length

/-- Whether there is no entry. -/
def isEmpty (t : Table κ α) : Bool := t.entries.isEmpty

variable [DecidableEq κ]

/-- Replace the value under `k`, or add a last entry. -/
def putEntry (k : κ) (a : α) : List (κ × α) → List (κ × α)
  | [] => [(k, a)]
  | e :: es => if e.1 = k then (k, a) :: es else e :: putEntry k a es

theorem map_fst_putEntry (k : κ) (a : α) (es : List (κ × α)) :
    (putEntry k a es).map Prod.fst =
      if k ∈ es.map Prod.fst then es.map Prod.fst else es.map Prod.fst ++ [k] := by
  induction es with
  | nil => simp [putEntry]
  | cons e es ih =>
    by_cases h : e.1 = k
    · simp [putEntry, h]
    · have h' : ¬ k = e.1 := fun h' => h h'.symm
      simp only [putEntry, h, if_false, List.map_cons, List.mem_cons, h', false_or, ih]
      split <;> simp

theorem nodup_putEntry (k : κ) (a : α) {es : List (κ × α)} (h : (es.map Prod.fst).Nodup) :
    ((putEntry k a es).map Prod.fst).Nodup := by
  rw [map_fst_putEntry]
  split
  · exact h
  · next hk =>
    rw [List.nodup_append]
    refine ⟨h, by simp, ?_⟩
    intro x hx y hy hxy
    rw [List.mem_singleton] at hy
    exact hk (hy ▸ hxy ▸ hx)

/-- The table without entries. -/
def empty : Table κ α := ⟨[], by simp⟩

/-- The table with `a` under `k`, at the place of `k` if it has one and at the end if not. -/
def insert (t : Table κ α) (k : κ) (a : α) : Table κ α :=
  ⟨putEntry k a t.entries, nodup_putEntry k a t.nodup⟩

/-- The table built by inserting the pairs in turn. -/
def ofList (ps : List (κ × α)) : Table κ α :=
  ps.foldl (fun t p => t.insert p.1 p.2) empty

/-- The value under a key. -/
def find? (t : Table κ α) (k : κ) : Option α :=
  (t.entries.find? fun e => e.1 = k).map Prod.snd

/-- Whether a key has a value. -/
def contains (t : Table κ α) (k : κ) : Bool := t.entries.any fun e => e.1 = k

end Table

end TapeLang
