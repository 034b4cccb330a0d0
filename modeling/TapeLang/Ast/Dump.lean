import TapeLang.Ast.Basic
import TapeLang.Json

/-!
# Summaries of syntax trees

`Ast.Program.toJson` shows a tree as a JSON object. The blank symbol is shown as a bare underscore
and every other symbol in quotes, so that a literal underscore is told apart.
-/

namespace TapeLang.Ast

/-- A symbol in a summary. -/
def Spelling.summary : Spelling → String
  | .blank => "_"
  | .bare value => Text.quoted value
  | .quoted value => Text.quoted value

/-- A row of symbols in a summary. -/
def symbolsJson (row : List Symbol) : Json := .strs (row.map fun s => s.spelling.summary)

/-- A transition in a summary. -/
def Transition.toJson (t : Transition) : Json :=
  .obj [
    ("read", symbolsJson t.read),
    ("write", .ofOption symbolsJson t.write),
    ("moves", .strs t.moves),
    ("next", .str t.next),
    ("line", .int t.loc.line)]

/-- A state in a summary. -/
def State.toJson (s : State) : Json :=
  .obj [
    ("name", .str s.name),
    ("line", .int s.loc.line),
    ("transitions", .arr (s.transitions.map Transition.toJson))]

/-- A tree in a summary. -/
def Program.toJson (p : Program) : Json :=
  .obj [
    ("name", .ofOption (fun d => .str d.text) p.name),
    ("tapes", .arr (p.tape.rows.map symbolsJson)),
    ("multi_tape", .bool p.tape.multi),
    ("heads", .ofOption (fun d => .arr (d.positions.map .int)) p.head),
    ("blank", .ofOption (fun d => .str d.symbol) p.blank),
    ("states", .arr (p.states.map State.toJson))]

end TapeLang.Ast
