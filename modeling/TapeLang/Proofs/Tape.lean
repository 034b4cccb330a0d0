import Mathlib
import TapeLang.Machine.Basic
import TapeLang.Proofs.Content

/-!
# A stored tape as a function on all positions

`Tape.peek t` is the function from positions to symbols for which the two arrays stand. Storing more
cells leaves it as it is, and writing changes it at one position, provided that the blank symbol is a
single character.

* `Tape.peek_ofList`, `Tape.peek_reach`, `Tape.peek_write`: the function after each operation;
* `Tape.cell?_reach`: a cell that has been reached is stored.
-/

namespace TapeLang

namespace Tape

variable {blank : Symbol} {t : Tape}

/-- What is written on a tape with given contents: a symbol of the row at each of its positions, and the
blank symbol at every other integer. -/
def contents (blank : Symbol) (row : List Symbol) (position : Int) : Symbol :=
  if h : 0 ≤ position ∧ position < row.length then
    row.get ⟨position.toNat, (Int.toNat_lt h.1).2 h.2⟩
  else blank

/-! ### One half of the tape -/

theorem blankCells_of_single (h : blank.length = 1) : blankCells blank = [blank] := by
  obtain ⟨c, rfl⟩ := Text.exists_singleton h
  simp [blankCells]

/-- A half is extended by as many blank symbols as it lacks cells. -/
theorem extend_of_single (h : blank.length = 1) (half : Array Symbol) (size : Nat) :
    extend blank half size = half ++ Array.replicate (size - half.size) blank := by
  have hcells : ∀ n, (List.replicate n (blankCells blank)).flatten = List.replicate n blank := by
    intro n
    rw [blankCells_of_single h]
    exact List.flatten_replicate_singleton
  rw [extend, hcells]
  apply Array.ext'
  simp

theorem size_extend (h : blank.length = 1) (half : Array Symbol) (size : Nat) :
    (extend blank half size).size = max half.size size := by
  rw [extend_of_single h, Array.size_append, Array.size_replicate]
  omega

/-- No position sees a difference. -/
theorem getD_extend (h : blank.length = 1) (half : Array Symbol) (size n : Nat) :
    (extend blank half size)[n]?.getD blank = half[n]?.getD blank := by
  rw [extend_of_single h, Array.getElem?_append]
  split
  · rfl
  · next hn =>
    have hnone : half[n]? = none := Array.getElem?_eq_none (Nat.le_of_not_lt hn)
    rw [hnone, Array.getElem?_replicate]
    split <;> rfl

/-- Every cell of the extended half is stored. -/
theorem getElem?_extend (h : blank.length = 1) (half : Array Symbol) {size n : Nat} (hn : n < size) :
    (extend blank half size)[n]? = some (half[n]?.getD blank) := by
  have hsize : n < (extend blank half size).size := by
    rw [size_extend h]
    omega
  rw [← getD_extend h half size n, Array.getElem?_eq_getElem hsize]
  rfl

theorem extend_extend (h : blank.length = 1) (half : Array Symbol) (size : Nat) :
    extend blank (extend blank half size) size = extend blank half size := by
  have hzero : size - (extend blank half size).size = 0 := by
    rw [size_extend h]
    omega
  rw [extend_of_single h (extend blank half size), hzero, Array.replicate_zero, Array.append_empty]

/-! ### Both halves -/

@[simp]
theorem blank_reach (t : Tape) (p : Int) : (t.reach p).blank = t.blank := by
  cases p <;> rfl

@[simp]
theorem blank_write (t : Tape) (p : Int) (s : Symbol) : (t.write p s).blank = t.blank := by
  cases p <;> rfl

theorem peek_ofList (row : List Symbol) (blank : Symbol) :
    (ofList row blank).peek = contents blank row := by
  funext p
  cases p with
  | ofNat n =>
    simp only [peek, cell?, ofList, contents]
    by_cases hn : n < row.length
    · simp [hn]
    · simp [hn]
  | negSucc n => simp [peek, cell?, ofList, contents]

theorem peek_reach (h : t.blank.length = 1) (p : Int) : (t.reach p).peek = t.peek := by
  funext q
  cases p with
  | ofNat n =>
    cases q with
    | ofNat m => exact getD_extend h t.right (n + 1) m
    | negSucc m => rfl
  | negSucc n =>
    cases q with
    | ofNat m => rfl
    | negSucc m => exact getD_extend h t.left (n + 1) m

/-- A cell that has been reached is stored, and holds what the tape has there. -/
theorem cell?_reach (h : t.blank.length = 1) (p : Int) : (t.reach p).cell? p = some (t.peek p) := by
  cases p with
  | ofNat n => exact getElem?_extend h t.right (Nat.lt_succ_self n)
  | negSucc n => exact getElem?_extend h t.left (Nat.lt_succ_self n)

/-- Reaching a cell a second time changes nothing. -/
theorem reach_reach (h : t.blank.length = 1) (p : Int) : (t.reach p).reach p = t.reach p := by
  cases p with
  | ofNat n => exact congrArg (Tape.mk t.blank t.left) (extend_extend h t.right (n + 1))
  | negSucc n => exact congrArg (Tape.mk t.blank · t.right) (extend_extend h t.left (n + 1))

theorem write_reach (h : t.blank.length = 1) (p : Int) (s : Symbol) :
    (t.reach p).write p s = t.write p s := by
  rw [write, write, reach_reach h]

/-- Writing where a cell is stored changes the function at this one position. -/
theorem peek_put (t : Tape) {p : Int} (s : Symbol) (h : (t.cell? p).isSome) :
    (t.put p s).peek = Function.update t.peek p s := by
  have hhalf : ∀ (half : Array Symbol) (n m : Nat), (half[n]?).isSome →
      (half.setIfInBounds n s)[m]?.getD t.blank = if m = n then s else half[m]?.getD t.blank := by
    intro half n m hn
    rw [isSome_getElem?] at hn
    rw [Array.getElem?_setIfInBounds]
    by_cases hmn : n = m
    · subst hmn
      simp [hn]
    · simp [hmn, Ne.symm hmn]
  funext q
  rw [Function.update_apply]
  cases p with
  | ofNat n =>
    cases q with
    | ofNat m => simpa [peek, cell?, put] using hhalf t.right n m h
    | negSucc m => rfl
  | negSucc n =>
    cases q with
    | ofNat m => rfl
    | negSucc m => simpa [peek, cell?, put] using hhalf t.left n m h

theorem peek_write (h : t.blank.length = 1) (p : Int) (s : Symbol) :
    (t.write p s).peek = Function.update t.peek p s := by
  have hstored : ((t.reach p).cell? p).isSome := by
    rw [cell?_reach h]
    rfl
  rw [write, peek_put _ s hstored, peek_reach h]

end Tape

end TapeLang
