import TapeLang.Text.Ranges
import TapeLang.Text.Space

/-!
# Decimal digits and other numbers

The general categories Nd, Nl and No of Unicode 14, and the decimal digits that the editions up to 17
have added. Decimal digits come in runs of ten that begin with a zero, so the digits are given by their
zeros. The added digits are recognised where a number may stand, but have no value.

* `digitValue?`: the value of a decimal digit.
* `isDecimal`: a decimal digit, with a value or without.
* `numeral?`: the number that a run of digits denotes, if all have values and the run is not too long.
* `integer?`: an integer with a sign, grouped digits and white space around it.
-/

namespace TapeLang.Text

set_option maxRecDepth 10000

/-- The decimal digits of value zero. -/
def zeros : List Nat :=
  [0x30, 0x660, 0x6F0, 0x7C0, 0x966, 0x9E6, 0xA66, 0xAE6, 0xB66, 0xBE6, 0xC66, 0xCE6, 0xD66,
   0xDE6, 0xE50, 0xED0, 0xF20, 0x1040, 0x1090, 0x17E0, 0x1810, 0x1946, 0x19D0, 0x1A80, 0x1A90,
   0x1B50, 0x1BB0, 0x1C40, 0x1C50, 0xA620, 0xA8D0, 0xA900, 0xA9D0, 0xA9F0, 0xAA50, 0xABF0, 0xFF10,
   0x104A0, 0x10D30, 0x11066, 0x110F0, 0x11136, 0x111D0, 0x112F0, 0x11450, 0x114D0, 0x11650,
   0x116C0, 0x11730, 0x118E0, 0x11950, 0x11C50, 0x11D50, 0x11DA0, 0x16A60, 0x16AC0, 0x16B50,
   0x1D7CE, 0x1D7D8, 0x1D7E2, 0x1D7EC, 0x1D7F6, 0x1E140, 0x1E2F0, 0x1E950, 0x1FBF0]

/-- The decimal digits of value zero that the editions 15 to 17 have added. -/
def laterZeros : List Nat :=
  [0x10D40, 0x116D0, 0x116DA, 0x11BF0, 0x11DE0, 0x11F50, 0x16130, 0x16D70, 0x1CCF0, 0x1E4F0,
   0x1E5F1]

/-- Numbers written as letters, such as the Roman numerals. -/
def letterNumberRanges : Ranges :=
  [(0x16EE, 0x16F0), (0x2160, 0x2182), (0x2185, 0x2188), (0x3007, 0x3007), (0x3021, 0x3029),
   (0x3038, 0x303A), (0xA6E6, 0xA6EF), (0x10140, 0x10174), (0x10341, 0x10341), (0x1034A, 0x1034A),
   (0x103D1, 0x103D5), (0x12400, 0x1246E)]

/-- Other numbers: superscripts, fractions, circled numbers. -/
def otherNumberRanges : Ranges :=
  [(0xB2, 0xB3), (0xB9, 0xB9), (0xBC, 0xBE), (0x9F4, 0x9F9), (0xB72, 0xB77), (0xBF0, 0xBF2),
   (0xC78, 0xC7E), (0xD58, 0xD5E), (0xD70, 0xD78), (0xF2A, 0xF33), (0x1369, 0x137C),
   (0x17F0, 0x17F9), (0x19DA, 0x19DA), (0x2070, 0x2070), (0x2074, 0x2079), (0x2080, 0x2089),
   (0x2150, 0x215F), (0x2189, 0x2189), (0x2460, 0x249B), (0x24EA, 0x24FF), (0x2776, 0x2793),
   (0x2CFD, 0x2CFD), (0x3192, 0x3195), (0x3220, 0x3229), (0x3248, 0x324F), (0x3251, 0x325F),
   (0x3280, 0x3289), (0x32B1, 0x32BF), (0xA830, 0xA835), (0x10107, 0x10133), (0x10175, 0x10178),
   (0x1018A, 0x1018B), (0x102E1, 0x102FB), (0x10320, 0x10323), (0x10858, 0x1085F),
   (0x10879, 0x1087F), (0x108A7, 0x108AF), (0x108FB, 0x108FF), (0x10916, 0x1091B),
   (0x109BC, 0x109BD), (0x109C0, 0x109CF), (0x109D2, 0x109FF), (0x10A40, 0x10A48),
   (0x10A7D, 0x10A7E), (0x10A9D, 0x10A9F), (0x10AEB, 0x10AEF), (0x10B58, 0x10B5F),
   (0x10B78, 0x10B7F), (0x10BA9, 0x10BAF), (0x10CFA, 0x10CFF), (0x10E60, 0x10E7E),
   (0x10F1D, 0x10F26), (0x10F51, 0x10F54), (0x10FC5, 0x10FCB), (0x11052, 0x11065),
   (0x111E1, 0x111F4), (0x1173A, 0x1173B), (0x118EA, 0x118F2), (0x11C5A, 0x11C6C),
   (0x11FC0, 0x11FD4), (0x16B5B, 0x16B61), (0x16E80, 0x16E96), (0x1D2E0, 0x1D2F3),
   (0x1D360, 0x1D378), (0x1E8C7, 0x1E8CF), (0x1EC71, 0x1ECAB), (0x1ECAD, 0x1ECAF),
   (0x1ECB1, 0x1ECB4), (0x1ED01, 0x1ED2D), (0x1ED2F, 0x1ED3D), (0x1F100, 0x1F10C)]

/-- The value of a decimal digit. -/
def digitValue? (c : Char) : Option Nat :=
  (zeros.find? fun z => z ≤ c.toNat && c.toNat < z + 10).map (c.toNat - ·)

/-- A decimal digit that has a value. -/
def isDigit (c : Char) : Bool := (digitValue? c).isSome

/-- A decimal digit, with a value or without: general category Nd. -/
def isDecimal (c : Char) : Bool :=
  isDigit c || laterZeros.any fun z => z ≤ c.toNat && c.toNat < z + 10

/-- A number written as a letter: general category Nl. -/
def isLetterNumber (c : Char) : Bool := letterNumberRanges.contains c.toNat

/-- A number of another kind: general category No. -/
def isOtherNumber (c : Char) : Bool := otherNumberRanges.contains c.toNat

/-- The greatest number of digits in a numeral. -/
def maxDigits : Nat := 4300

/-- The number denoted by a run of digits, most significant first. -/
def ofDigits (ds : List Char) : Nat :=
  ds.foldl (fun n c => 10 * n + (digitValue? c).getD 0) 0

/-- The number denoted by a run of digits, unless there are more than `maxDigits` of them or one has no
value; leading zeros count. -/
def numeral? (ds : List Char) : Option Nat :=
  if ds.length ≤ maxDigits ∧ ds.all isDigit then some (ofDigits ds) else none

/-- The digits of a run in which single underscores may stand between digits. -/
def ungroup? : List Char → Option (List Char)
  | [] => none
  | [c] => if isDigit c then some [c] else none
  | c :: '_' :: rest => if isDigit c then (ungroup? rest).map (c :: ·) else none
  | c :: rest => if isDigit c then (ungroup? rest).map (c :: ·) else none

/-- The natural number written by a run of grouped digits. -/
def natural? (s : List Char) : Option Nat := (ungroup? s).bind numeral?

/-- The integer that a text denotes: white space, a sign, grouped digits, white space. -/
def integer? (s : List Char) : Option Int :=
  match dropEnds isWhite s with
  | '-' :: digits => (natural? digits).map fun n => -(n : Int)
  | '+' :: digits => (natural? digits).map fun n => (n : Int)
  | digits => (natural? digits).map fun n => (n : Int)

end TapeLang.Text
