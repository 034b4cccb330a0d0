/-!
# Usage and help texts

The short usage and the full help of the program and of its commands.
-/

namespace TapeLang.CommandLine

/-- Lines of text, each with a line break. -/
def unlines (lines : List String) : String := String.join (lines.map (· ++ "\n"))

/-- The usage of the program. -/
def programUsage : String :=
  unlines [
    "usage: turlang [-h] [--version] [-v] <command> ..."]

/-- The help of the program. -/
def programHelp : String :=
  programUsage ++ unlines [
    "",
    "turlang: parse, check and run Turing machine programs (.tur).",
    "",
    "options:",
    "  -h, --help     show this help message and exit",
    "  --version      show program's version number and exit",
    "  -v, --verbose  Increase verbosity (-v info, -vv debug).",
    "",
    "commands:",
    "  <command>",
    "    check        Parse, build and statically analyze a program.",
    "    parse        Parse a program and print its AST as JSON.",
    "    run          Execute a program and print the final tapes.",
    "",
    "examples:",
    "  turlang check examples/busy-beaver-3.tur",
    "  turlang parse examples/multi-tape-copy.tur",
    "  turlang run   examples/binary-increment.tur --input 1011 --trace"]

/-- The usage of the command `check`. -/
def checkUsage : String :=
  unlines [
    "usage: turlang check [-h] [--format \x7btext,json\x7d] [--suppress ID] [-o FILE]",
    "                     FILE"]

/-- The help of the command `check`. -/
def checkHelp : String :=
  checkUsage ++ unlines [
    "",
    "positional arguments:",
    "  FILE                  Path to a .tur program.",
    "",
    "options:",
    "  -h, --help            show this help message and exit",
    "  --format \x7btext,json\x7d  Diagnostic output format (default: text).",
    "  --suppress ID         Suppress diagnostics with this error id (repeatable).",
    "  -o FILE, --output FILE",
    "                        Output file (\"-\" or omit for stdout)."]

/-- The usage of the command `parse`. -/
def parseUsage : String :=
  unlines [
    "usage: turlang parse [-h] [-o FILE] FILE"]

/-- The help of the command `parse`. -/
def parseHelp : String :=
  parseUsage ++ unlines [
    "",
    "positional arguments:",
    "  FILE                  Path to a .tur program.",
    "",
    "options:",
    "  -h, --help            show this help message and exit",
    "  -o FILE, --output FILE",
    "                        Output file (\"-\" or omit for stdout)."]

/-- The usage of the command `run`. -/
def runUsage : String :=
  unlines [
    "usage: turlang run [-h] [--strict] [--max-steps N] [--input TAPE [TAPE ...]]",
    "                   [--trace]",
    "                   FILE"]

/-- The help of the command `run`. -/
def runHelp : String :=
  runUsage ++ unlines [
    "",
    "positional arguments:",
    "  FILE                  Path to a .tur program.",
    "",
    "options:",
    "  -h, --help            show this help message and exit",
    "  --strict              Stop with an error when no transition matches",
    "                        (default: halt).",
    "  --max-steps N         Stop after N steps (default: run until the machine",
    "                        halts).",
    "  --input TAPE [TAPE ...]",
    "                        Replace the initial tape contents, one string per",
    "                        tape.",
    "  --trace               Print the configuration after every step."]

/-- The version of the program. -/
def versionText : String := unlines ["turlang 0.1.0"]

end TapeLang.CommandLine
