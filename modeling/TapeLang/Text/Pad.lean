/-!
# Padding

Texts brought to a minimal width; a longer text is left as it is.
-/

namespace TapeLang.Text

/-- The text behind as many copies of `fill` as it lacks to `width`. -/
def padStart (width : Nat) (fill : Char) (s : String) : String :=
  String.ofList (List.replicate (width - s.length) fill) ++ s

/-- The text followed by as many copies of `fill` as it lacks to `width`. -/
def padEnd (width : Nat) (fill : Char) (s : String) : String :=
  s ++ String.ofList (List.replicate (width - s.length) fill)

/-- An integer with zeros between its sign and its digits, up to `width` characters in all. -/
def zeroPadded (width : Nat) : Int → String
  | .ofNat n => padStart width '0' (toString n)
  | .negSucc n => "-" ++ padStart (width - 1) '0' (toString (n + 1))

end TapeLang.Text
