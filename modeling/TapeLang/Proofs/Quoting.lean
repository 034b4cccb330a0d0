import Mathlib
import TapeLang.Text.Quoted

/-!
# Quoted texts can be read back

Quoting chooses between two quotes and writes some characters as escapes of different lengths. Different texts
have different quoted forms all the same: what stands at the beginning of the form of a character tells how
long that form is, and from it the character can be told.

* `hexValue_hexDigits`: the value of hexadecimal digits;
* `unquoteChar`: the first character of what stands between quotes, and the rest;
* `unquoteChar_quotedChar`: it reads back the form of a character, whatever follows;
* `quoted_injective`: no two texts have the same quoted form.
-/

namespace TapeLang.Text

/-! ### Hexadecimal digits -/

/-- The value of a hexadecimal digit in lower case. -/
def hexDigitValue (c : Char) : Nat := if c.toNat < 0x61 then c.toNat - 0x30 else c.toNat - 0x57

/-- The number that hexadecimal digits stand for, the first of which counts most. -/
def hexValue : List Char → Nat
  | [] => 0
  | c :: s => hexDigitValue c * 16 ^ s.length + hexValue s

theorem hexDigitValue_digitChar {d : Nat} (h : d < 16) : hexDigitValue (Nat.digitChar d) = d := by
  have hall : ∀ d < 16, hexDigitValue (Nat.digitChar d) = d := by decide
  exact hall d h

theorem length_hexDigits (width n : Nat) : (hexDigits width n).length = width := by
  simp [hexDigits]

theorem hexDigits_succ (width n : Nat) :
    hexDigits (width + 1) n = Nat.digitChar ((n >>> (4 * width)) % 16) :: hexDigits width n := by
  simp [hexDigits, List.range_succ]

/-- The digits stand for the number as far as they reach. -/
theorem hexValue_hexDigits (width n : Nat) : hexValue (hexDigits width n) = n % 16 ^ width := by
  induction width with
  | zero => simp [hexDigits, hexValue, Nat.mod_one]
  | succ width ih =>
    have hdigit : (n >>> (4 * width)) % 16 = n / 16 ^ width % 16 := by
      rw [Nat.shiftRight_eq_div_pow, Nat.pow_mul]
    rw [hexDigits_succ, hexValue, hexDigitValue_digitChar (Nat.mod_lt _ (by decide)), length_hexDigits, ih,
      hdigit, Nat.mod_pow_succ, Nat.mul_comm, Nat.add_comm]

/-! ### One character -/

/-- The first character of what stands between quotes, and the rest. -/
def unquoteChar : List Char → Char × List Char
  | '\\' :: 'n' :: s => ('\n', s)
  | '\\' :: 'r' :: s => ('\r', s)
  | '\\' :: 't' :: s => ('\t', s)
  | '\\' :: 'x' :: s => (Char.ofNat (hexValue (s.take 2)), s.drop 2)
  | '\\' :: 'u' :: s => (Char.ofNat (hexValue (s.take 4)), s.drop 4)
  | '\\' :: 'U' :: s => (Char.ofNat (hexValue (s.take 8)), s.drop 8)
  | '\\' :: c :: s => (c, s)
  | c :: s => (c, s)
  | [] => (default, [])

theorem quotedChar_ne_nil (q c : Char) : quotedChar q c ≠ [] := by
  unfold quotedChar
  split_ifs <;> simp

/-- The code point of a character, written with enough digits and read back. -/
theorem ofNat_hexValue (width : Nat) {c : Char} (h : c.toNat < 16 ^ width) (rest : List Char) :
    Char.ofNat (hexValue ((hexDigits width c.toNat ++ rest).take width)) = c ∧
      (hexDigits width c.toNat ++ rest).drop width = rest := by
  have hlength := length_hexDigits width c.toNat
  rw [List.take_left' hlength, List.drop_left' hlength, hexValue_hexDigits, Nat.mod_eq_of_lt h]
  exact ⟨Char.ofNat_toNat c, rfl⟩

/-- **The form of a character is read back,** whatever follows it. -/
theorem unquoteChar_quotedChar {q : Char} (hq : q ∈ ['\'', '"']) (c : Char) (rest : List Char) :
    unquoteChar (quotedChar q c ++ rest) = (c, rest) := by
  have hbound : c.toNat < 16 ^ 8 := c.val.toNat_lt
  unfold quotedChar
  split_ifs with hescaped hn hr ht hprintable hbyte hunit
  -- After a backslash, a quote or a backslash is none of the letters that begin an escape.
  · have hmem : c ∈ ['\'', '"', '\\'] := by grind
    fin_cases hmem <;> rfl
  · simp [unquoteChar, eq_of_beq hn]
  · simp [unquoteChar, eq_of_beq hr]
  · simp [unquoteChar, eq_of_beq ht]
  · have hne : c ≠ '\\' := by grind
    simp [unquoteChar, hne]
  · obtain ⟨hvalue, hrest⟩ := ofNat_hexValue 2 hbyte rest
    simp only [List.cons_append, unquoteChar, hvalue, hrest]
  · obtain ⟨hvalue, hrest⟩ := ofNat_hexValue 4 hunit rest
    simp only [List.cons_append, unquoteChar, hvalue, hrest]
  · obtain ⟨hvalue, hrest⟩ := ofNat_hexValue 8 hbound rest
    simp only [List.cons_append, unquoteChar, hvalue, hrest]

/-! ### Whole texts -/

theorem flatMap_quotedChar_injective {q : Char} (hq : q ∈ ['\'', '"']) :
    Function.Injective fun s : List Char => s.flatMap (quotedChar q) := by
  intro s
  induction s with
  | nil =>
    intro s' h
    cases s' with
    | nil => rfl
    | cons c s' =>
      have hnil := List.append_eq_nil_iff.mp h.symm
      exact absurd hnil.1 (quotedChar_ne_nil q c)
  | cons c s ih =>
    intro s' h
    cases s' with
    | nil =>
      have hnil := List.append_eq_nil_iff.mp h
      exact absurd hnil.1 (quotedChar_ne_nil q c)
    | cons c' s' =>
      have hread := congrArg unquoteChar h
      simp only [List.flatMap_cons, unquoteChar_quotedChar hq, Prod.mk.injEq] at hread
      rw [hread.1, ih hread.2]

theorem quoteMark_mem (s : List Char) : quoteMark s ∈ ['\'', '"'] := by
  unfold quoteMark
  split <;> simp

theorem quotedChars_injective : Function.Injective quotedChars := by
  intro s s' h
  obtain ⟨hmark, hbody⟩ := List.cons.inj h
  rw [hmark] at hbody
  exact flatMap_quotedChar_injective (quoteMark_mem s') (List.append_cancel_right hbody)

/-- **No two texts have the same quoted form.** -/
theorem quoted_injective : Function.Injective quoted := by
  intro s s' h
  exact String.toList_injective (quotedChars_injective (String.ofList_injective h))

/-- A quoted form begins with a quote. -/
theorem quoted_ne_underscore (s : String) : quoted s ≠ "_" := by
  intro h
  have hchars : quotedChars s.toList = ['_'] := String.ofList_injective h
  have hmark : quoteMark s.toList = '_' := (List.cons.inj hchars).1
  exact absurd (hmark ▸ quoteMark_mem s.toList) (by decide)

end TapeLang.Text
