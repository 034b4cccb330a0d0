import TapeLang.Text.Quoted

/-!
# JSON values

Values without fractions, and their indented text: two spaces a level, one item a line, ASCII only.

* `Json`: the values; an object keeps its fields in order.
* `Json.pretty`: the indented text.
-/

namespace TapeLang

/-- A JSON value whose numbers are integers. -/
inductive Json where
  | null
  | bool (b : Bool)
  | int (n : Int)
  | str (s : String)
  | arr (items : List Json)
  | obj (fields : List (String × Json))
  deriving Inhabited

namespace Json

/-- A list of texts. -/
def strs (xs : List String) : Json := .arr (xs.map .str)

/-- A value that may be absent. -/
def ofOption {α : Type} (f : α → Json) : Option α → Json
  | some a => f a
  | none => .null

/-- One 16-bit unit as an escape. -/
def unitEscape (n : Nat) : List Char := '\\' :: 'u' :: Text.hexDigits 4 n

/-- A character inside a JSON text. Outside ASCII it is escaped, above U+FFFF as two surrogates. -/
def escapeChar (c : Char) : List Char :=
  if c == '"' || c == '\\' then ['\\', c]
  else if c == '\n' then ['\\', 'n']
  else if c == '\r' then ['\\', 'r']
  else if c == '\t' then ['\\', 't']
  else if c == '\x0c' then ['\\', 'f']
  else if c == '\x08' then ['\\', 'b']
  else
    let n := c.toNat
    if 0x20 ≤ n && n ≤ 0x7E then [c]
    else if n < 0x10000 then unitEscape n
    else unitEscape (0xD800 + (n - 0x10000) / 0x400) ++ unitEscape (0xDC00 + (n - 0x10000) % 0x400)

/-- A text between double quotes. -/
def escape (s : String) : String :=
  String.ofList ('"' :: (s.toList.flatMap escapeChar ++ ['"']))

/-- A line break and the indentation of level `depth`. -/
def newline (depth : Nat) : String := String.ofList ('\n' :: List.replicate (2 * depth) ' ')

mutual

/-- The indented text of a value that stands at level `depth`. -/
def prettyAt (depth : Nat) : Json → String
  | .null => "null"
  | .bool true => "true"
  | .bool false => "false"
  | .int n => toString n
  | .str s => escape s
  | .arr [] => "[]"
  | .arr (x :: xs) =>
    "[" ++ newline (depth + 1) ++ prettyAt (depth + 1) x ++ prettyItems (depth + 1) xs ++
      newline depth ++ "]"
  | .obj [] => "\x7b\x7d"
  | .obj ((k, v) :: fields) =>
    "\x7b" ++ newline (depth + 1) ++ escape k ++ ": " ++ prettyAt (depth + 1) v ++
      prettyFields (depth + 1) fields ++ newline depth ++ "\x7d"

/-- The items of a list after the first. -/
def prettyItems (depth : Nat) : List Json → String
  | [] => ""
  | x :: xs => "," ++ newline depth ++ prettyAt depth x ++ prettyItems depth xs

/-- The fields of an object after the first. -/
def prettyFields (depth : Nat) : List (String × Json) → String
  | [] => ""
  | (k, v) :: fields =>
    "," ++ newline depth ++ escape k ++ ": " ++ prettyAt depth v ++ prettyFields depth fields

end

/-- The indented text of a value. -/
def pretty (j : Json) : String := prettyAt 0 j

end Json

end TapeLang
