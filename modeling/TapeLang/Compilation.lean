import TapeLang.Analysis.Check
import TapeLang.Program.Build
import TapeLang.Source.Reader

/-!
# From a source text to an analysed program

* `compile`: read a text, build its program and analyse it, with the notes made on the way.
* `Diagnostic.failure?`: the report of the errors among diagnostics.
-/

namespace TapeLang

/-- Why a text yields no program. -/
inductive CompileError where
  | read (e : ReadError)
  | build (e : BuildError)
  deriving DecidableEq, Repr

/-- A program with the diagnostics about it. -/
structure Compiled where
  program : Program
  diagnostics : List Diagnostic

/-- The program of a text, with the notes made on the way. -/
def compileProgram (text : List Char) (file : String) :
    List LogRecord × Except CompileError Program :=
  match parse text file with
  | .error e => ([], .error (.read e))
  | .ok tree =>
    match build tree with
    | .error e => ([parsedRecord file tree], .error (.build e))
    | .ok program => ([parsedRecord file tree, builtRecord program], .ok program)

/-- The program of a text with its diagnostics, less those that are silenced by identifier or by a
comment in the text. -/
def compile (text : List Char) (file : String) (suppress : List String := []) :
    List LogRecord × Except CompileError Compiled :=
  match compileProgram text file with
  | (log, .error e) => (log, .error e)
  | (log, .ok program) =>
    let suppressions : Suppressions := { everywhere := suppress }
    let ds := analyze program (some file) (suppressions.load text)
    (log ++ [analyzedRecord program (some file) ds], .ok ⟨program, ds⟩)

namespace Diagnostic

/-- The report of a list of errors. -/
def failure (found : List Diagnostic) (span : Span := {}) : Report where
  code := .analysisFailed
  message :=
    toString found.length ++ " analysis error(s); first: " ++
      (found.head?.map Diagnostic.message).getD "no diagnostics"
  span := span

/-- The report of the errors among diagnostics, at the place of the first, if there are any. -/
def failure? (ds : List Diagnostic) : Option Report :=
  match errors ds with
  | [] => none
  | d :: found =>
    some (failure (d :: found)
      ((d.location.map fun l => Span.point l.file l.line l.column).getD {}))

end Diagnostic

end TapeLang
