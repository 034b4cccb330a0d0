/-!
# Sets of characters given by ranges

A `Ranges` lists closed intervals of code points in increasing order, so that a look-up can stop at
the first interval that begins too late.
-/

namespace TapeLang.Text

/-- Closed intervals of code points, in increasing order. -/
abbrev Ranges := List (Nat × Nat)

/-- Whether a code point lies in one of the intervals. -/
def Ranges.contains : Ranges → Nat → Bool
  | [], _ => false
  | (first, last) :: rest, n => first ≤ n && (n ≤ last || contains rest n)

end TapeLang.Text
