import Mathlib
import TapeLang.Proofs.Calls

/-!
# Tapes through a window

A window shows the cells of a tape between two positions. What a machine shows of its tapes, in its
snapshots and in the lines of a trace, are such windows.

* `Tape.window`: the cells from a position up to another one;
* `Tape.symbols_eq_window`: the stored cells are the window between the bounds;
* `Tape.picture`: the window of a trace, with the cell under the head in brackets;
* `trace_line_shows_configuration`: the line of a trace is made of these pictures.
-/

namespace TapeLang

namespace Tape

/-! ### Windows -/

/-- The cells from position `first` up to, but not including, position `last`. -/
def window (f : Int → Symbol) (first last : Int) : List Symbol := (Int.range first last).map f

variable {f g : Int → Symbol} {first middle last : Int}

@[simp]
theorem length_window (f : Int → Symbol) (first last : Int) :
    (window f first last).length = (last - first).toNat := by
  simp [window, Int.range]

theorem mem_window {s : Symbol} : s ∈ window f first last ↔ ∃ p, first ≤ p ∧ p < last ∧ f p = s := by
  simp [window, Int.mem_range_iff, and_assoc]

theorem getElem?_window (f : Int → Symbol) (first last : Int) (i : Nat) :
    (window f first last)[i]? = if first + i < last then some (f (first + i)) else none := by
  by_cases hi : first + i < last
  · have hlt : i < (last - first).toNat := by omega
    simp [window, Int.range, hi, hlt]
  · have hle : ¬i < (last - first).toNat := by omega
    simp [window, Int.range, hi, hle]

theorem window_congr (h : ∀ p, first ≤ p → p < last → f p = g p) :
    window f first last = window g first last :=
  List.map_congr_left fun p hp => h p (Int.mem_range_iff.1 hp).1 (Int.mem_range_iff.1 hp).2

/-- Two windows side by side are one. -/
theorem window_append (f : Int → Symbol) (hfirst : first ≤ middle) (hlast : middle ≤ last) :
    window f first middle ++ window f middle last = window f first last := by
  apply List.ext_getElem?
  intro i
  rw [List.getElem?_append, length_window, getElem?_window, getElem?_window, getElem?_window]
  by_cases hi : i < (middle - first).toNat
  · rw [if_pos hi, if_pos (by omega), if_pos (by omega)]
  · have hposition : middle + ((i - (middle - first).toNat : Nat) : Int) = first + i := by omega
    rw [if_neg hi, hposition]

theorem window_singleton (f : Int → Symbol) (p : Int) : window f p (p + 1) = [f p] := by
  simp [window, Int.range]

theorem window_eq_replicate {s : Symbol} (h : ∀ p, first ≤ p → p < last → f p = s) :
    window f first last = List.replicate (last - first).toNat s := by
  rw [List.eq_replicate_iff]
  refine ⟨length_window f first last, fun s' hs' => ?_⟩
  obtain ⟨p, hfirst, hlast, rfl⟩ := mem_window.1 hs'
  exact h p hfirst hlast

/-- Changing one cell of a window. -/
theorem modify_window (f : Int → Symbol) (first last : Int) (n : Nat) (change : Symbol → Symbol) :
    (window f first last).modify n change =
      window (fun p => if p = first + n then change (f p) else f p) first last := by
  apply List.ext_getElem?
  intro i
  rw [List.getElem?_modify, getElem?_window, getElem?_window]
  by_cases hi : first + i < last
  · by_cases hn : n = i
    · simp [hi, hn]
    · have hne : first + (i : Int) ≠ first + n := by omega
      simp [hi, hn, hne]
  · simp [hi]

/-! ### Stored cells -/

variable {t : Tape}

theorem peek_of_negSucc (t : Tape) (k : Nat) : t.peek (Int.negSucc k) = t.left[k]?.getD t.blank := rfl

theorem peek_of_nat (t : Tape) (k : Nat) : t.peek (k : Int) = t.right[k]?.getD t.blank := rfl

theorem reverse_left_eq_window (t : Tape) : t.left.toList.reverse = window t.peek t.offset 0 := by
  apply List.ext_getElem
  · simp [offset]
  · intro i hi _
    rw [List.length_reverse, Array.length_toList] at hi
    have hposition : t.offset + i = Int.negSucc (t.left.size - 1 - i) := by
      unfold offset
      omega
    have hlt : t.left.size - 1 - i < t.left.size := by omega
    simp [window, Int.range, hposition, peek_of_negSucc, hlt]

theorem right_eq_window (t : Tape) : t.right.toList = window t.peek 0 t.right.size := by
  apply List.ext_getElem
  · simp
  · intro i hi _
    rw [Array.length_toList] at hi
    simp [window, Int.range, peek_of_nat, hi]

/-- **The stored cells are the window between the bounds.** -/
theorem symbols_eq_window (t : Tape) : t.symbols = window t.peek t.bounds.1 t.bounds.2 := by
  have hleft : t.offset ≤ 0 := by unfold offset; omega
  rw [symbols, reverse_left_eq_window, right_eq_window]
  exact window_append t.peek hleft (Int.natCast_nonneg _)

/-- Outside the bounds a tape is blank. -/
theorem peek_of_outside {p : Int} (h : p < t.bounds.1 ∨ t.bounds.2 ≤ p) : t.peek p = t.blank := by
  unfold bounds offset at h
  cases p with
  | ofNat n =>
    have hn : t.right.size ≤ n := by rcases h with h | h <;> simp at h <;> omega
    rw [Int.ofNat_eq_natCast, peek_of_nat, Array.getElem?_eq_none hn]
    rfl
  | negSucc n =>
    have hn : t.left.size ≤ n := by rcases h with h | h <;> simp at h <;> omega
    rw [peek_of_negSucc, Array.getElem?_eq_none hn]
    rfl

/-! ### The picture of a tape -/

/-- The text of the cells from the first one that is stored or under the head to the last one, with the cell
under the head in brackets. -/
def picture (t : Tape) (head : Int) : String :=
  String.join ((Int.range (min t.bounds.1 head) (max (t.bounds.2 - 1) head + 1)).map fun p =>
    if p = head then "[" ++ t.peek p ++ "]" else t.peek p)

/-- The tape as a function, with brackets around the symbol under the head. -/
def marked (f : Int → Symbol) (head p : Int) : Symbol := if p = head then "[" ++ f p ++ "]" else f p

theorem marked_of_ne {head p : Int} (h : p ≠ head) : marked f head p = f p := if_neg h

/-- Marking the head in a window of a tape that is blank outside. -/
theorem markHead_window {blank : Symbol} {head : Int} (hbounds : first ≤ last)
    (hblank : ∀ p, p < first ∨ last ≤ p → f p = blank) :
    markHead (window f first last) (head - first) blank =
      String.join (window (marked f head) (min first head) (max last (head + 1))) := by
  cases hindex : head - first with
  | ofNat n =>
    -- the row is filled up to the head, and then the head is marked in it
    have hhead : head = first + n := by rw [Int.ofNat_eq_natCast] at hindex; omega
    have hfill : window f first last ++ List.replicate (n + 1 - (window f first last).length) blank =
        window f first (max last (head + 1)) := by
      have hrest : window f last (max last (head + 1)) =
          List.replicate (max last (head + 1) - last).toNat blank :=
        window_eq_replicate fun p hp _ => hblank p (.inr hp)
      rw [length_window, ← window_append f hbounds (le_max_left last (head + 1)), hrest]
      congr 2
      omega
    have hmin : min first head = first := by omega
    simp only [markHead]
    rw [hfill, modify_window, hmin, hhead]
    rfl
  | negSucc n =>
    have hhead : head = first - (n + 1) := by omega
    have hmin : min first head = head := by omega
    have hmax : max last (head + 1) = last := by omega
    have hmarked : window (marked f head) head (head + 1) = ["[" ++ blank ++ "]"] := by
      rw [window_singleton, marked, if_pos rfl, hblank head (.inl (by omega))]
    have hgap : window (marked f head) (head + 1) first = List.replicate n blank := by
      rw [window_eq_replicate (s := blank)]
      · congr 1
        omega
      · intro p hp hfirst
        rw [marked_of_ne (by omega), hblank p (.inl hfirst)]
    have hrow : window (marked f head) first last = window f first last :=
      window_congr fun p hp _ => marked_of_ne (by omega)
    simp only [markHead]
    rw [hmin, hmax, ← window_append _ (by omega : head ≤ first) hbounds,
      ← window_append _ (by omega : head ≤ head + 1) (by omega : head + 1 ≤ first), hmarked, hgap, hrow]
    rfl

/-- **The row of stored cells with the head marked is the picture of the tape.** -/
theorem markHead_symbols (t : Tape) (head : Int) :
    markHead t.symbols (head - t.offset) t.blank = t.picture head := by
  have hbounds : t.bounds.1 ≤ t.bounds.2 := by unfold bounds offset; simp only; omega
  have hlast : max (t.bounds.2 - 1) head + 1 = max t.bounds.2 (head + 1) := by omega
  rw [symbols_eq_window, picture, hlast]
  exact markHead_window hbounds fun p => peek_of_outside

end Tape

/-! ### The lines of a trace -/

namespace Machine

variable {m m' : Machine} {o : Outcome} {p : Program} {mode : Mode} {config : TapeLang.Config}
  {fired : List Transition}

/-- No step changes the blank symbols of the tapes. -/
theorem Sound.map_blank (hm : m.Sound) (h : m.Takes o m') :
    m'.tapes.map Tape.blank = m.tapes.map Tape.blank := by
  cases h with
  | rests => rfl
  | sticks => exact map_blank_reachCells m.tapes m.heads
  | fires _ fits => exact map_blank_writeCells hm.heads (hm.sized_of_transition? fits).1

/-- The tapes of a machine have the blank symbol of its program. -/
theorem Sound.blank_iterate (hsound : (start p mode config).Sound) (n : Nat) :
    ∀ t ∈ (Machine.advance^[n] (start p mode config)).tapes, t.blank = p.blank := by
  refine (hsound.advance_induction (P := fun _ m => ∀ t ∈ m.tapes, t.blank = p.blank) ?_ ?_ n).2
  · intro t ht
    obtain ⟨row, -, rfl⟩ := List.mem_map.1 ht
    rfl
  · intro n m o m' hm hblank htakes t ht
    have hmem : t.blank ∈ m.tapes.map Tape.blank := hm.map_blank htakes ▸ List.mem_map_of_mem ht
    obtain ⟨t', ht', heq⟩ := List.mem_map.1 hmem
    rw [← heq, hblank t' ht']

/-- The rows of a snapshot with their heads marked are the pictures of the tapes. -/
theorem zipWith_markHead_snapshot {blank : Symbol} (hblank : ∀ t ∈ m.tapes, t.blank = blank) :
    List.zipWith (fun row index => markHead row index blank) m.snapshot.tapes m.snapshot.headIndices =
      List.zipWith Tape.picture m.tapes m.heads := by
  apply List.ext_getElem?
  intro i
  simp only [snapshot, Snapshot.headIndices, List.getElem?_zipWith, List.getElem?_map]
  cases ht : m.tapes[i]? with
  | none => simp
  | some t =>
    cases hhead : m.heads[i]? with
    | none => simp
    | some head =>
      have hpicture := t.markHead_symbols head
      rw [hblank t (List.mem_of_getElem? ht)] at hpicture
      simp [hpicture]

end Machine

/-- **The line of a trace shows the true configuration.** Take a program that has been read and built from a
text, on its own tapes or on others, and a machine that any calls and resets have led to. It has a head for
each tape, and what the line of a trace shows of a tape, the row of its snapshot with the head marked, is the
picture of the tape: every cell from the first that is stored or under the head to the last one, with the
cell under the head in brackets. -/
theorem trace_line_shows_configuration (text : List Char) (file : String) (tree : Ast.Program)
    (p q : Program) (hparse : parse text file = .ok tree) (hbuild : build tree = .ok p)
    (hq : q = p ∨ ∃ rows, p.withTapes rows = .ok q) (mode : Mode) (config : Config)
    (fired : List Transition) (m : Machine) (hm : Machine.Reached q mode config fired m) :
    m.heads.length = m.tapes.length ∧
      (∀ (i : Nat) (t : Tape) (head : Int), m.tapes[i]? = some t → m.heads[i]? = some head →
        ∃ row index, m.snapshot.tapes[i]? = some row ∧ m.snapshot.headIndices[i]? = some index ∧
          markHead row index q.blank = t.picture head) ∧
      m.snapshot.line q.blank =
        Text.padStart 6 ' ' (toString m.steps) ++ "  " ++ Text.padEnd 12 ' ' m.state ++ " " ++
          " | ".intercalate (List.zipWith Tape.picture m.tapes m.heads) := by
  have hsound := (wellFormed_of_input hparse hbuild hq).sound_start mode config
  have hblank : ∀ t ∈ m.tapes, t.blank = q.blank := by
    obtain ⟨n, rfl⟩ := hm.exists_iterate hsound
    exact hsound.blank_iterate n
  refine ⟨(hm.accounted hsound).sound.heads, ?_, ?_⟩
  · intro i t head ht hhead
    refine ⟨t.symbols, head - t.offset, ?_, ?_, ?_⟩
    · simp [Machine.snapshot, ht]
    · simp [Machine.snapshot, Snapshot.headIndices, List.getElem?_zipWith, ht, hhead]
    · rw [← hblank t (List.mem_of_getElem? ht), t.markHead_symbols head]
  · rw [Snapshot.line, Machine.zipWith_markHead_snapshot hblank]
    rfl

/-- A text with an empty tape and a head that starts behind its row; the other head walks off to the left. -/
def headsOutside : List Char :=
  ("tapes:\n  [a]\n  []\nheads: [3, 0]\nblank: '.'\nrules:\n  q:\n" ++
    "    [_, _] -> [_, x], [S, L], q\n").toList

/-- After one step the heads stand to the right and to the left of the stored cells. -/
theorem trace_line_shows_configuration_heads_outside :
    ∃ tree p m, parse headsOutside "m" = .ok tree ∧ build tree = .ok p ∧
      m = ((Machine.start p .normal {}).perform .step).2 ∧
      m.tapes.map Tape.bounds = [(0, 4), (0, 1)] ∧ m.heads = [3, -1] ∧
      m.snapshot.line p.blank = "     1  q            a..[.] | [.]x" := by
  have heval : ((parse headsOutside "m").toOption.bind fun tree => (build tree).toOption.map fun p =>
      let m := ((Machine.start p .normal {}).perform .step).2
      (m.tapes.map Tape.bounds, m.heads, m.steps, m.state, List.zipWith Tape.picture m.tapes m.heads)) =
      some ([(0, 4), (0, 1)], [3, -1], 1, "q", ["a..[.]", "[.]x"]) := by
    decide +kernel
  simp only [Option.bind_eq_some_iff, Option.map_eq_some_iff, toOption_eq_some_iff, Prod.mk.injEq]
    at heval
  obtain ⟨tree, hparse, p, hbuild, hbounds, hheads, hsteps, hstate, hpictures⟩ := heval
  have hstart : Machine.Reached p .normal {} [] (Machine.start p .normal {}) := .start
  obtain ⟨-, -, hline⟩ := trace_line_shows_configuration headsOutside "m" tree p p hparse hbuild (.inl rfl)
    .normal {} _ _ (hstart.call .step)
  rw [hsteps, hstate, hpictures] at hline
  refine ⟨tree, p, _, hparse, hbuild, rfl, hbounds, hheads, hline.trans ?_⟩
  decide +kernel

end TapeLang
