import Std.Time
import TapeLang.CommandLine.Execute

/-!
# The program

Reads the source file that the command line names, carries out the command line, and prints and
writes what comes of it.
-/

namespace TapeLang.CommandLine

/-- The time of day, `seconds` after midnight. -/
def clockText (seconds : Nat) : String :=
  let two (n : Nat) : String := Text.padStart 2 '0' (toString n)
  two (seconds / 3600 % 24) ++ ":" ++ two (seconds / 60 % 60) ++ ":" ++ two (seconds % 60)

/-- The files that a command line names, as far as they can be read. -/
def gather (d : Disk) (args : List String) : IO Disk := do
  match ask args with
  | .request r =>
    match d.resolve? r.file with
    | none => return d
    | some path =>
      try
        return { d with files := [(path, ← IO.FS.readBinFile path.text)] }
      catch _ => return d
  | _ => return d

/-- Carry out a command line, with more and more patience. -/
partial def persist (d : Disk) (clock : String) (args : List String) (patience : Nat) : IO Ending := do
  match execute d clock patience args with
  | some ending => return ending
  | none => persist d clock args (2 * patience)

end TapeLang.CommandLine

open TapeLang.CommandLine in
/-- Run the program. -/
def main (args : List String) : IO UInt32 := do
  let cwd ← IO.currentDir
  let home := (← IO.getEnv "HOME").getD "/"
  let now ← Std.Time.Timestamp.now
  let clock := clockText (now.toSecondsSinceUnixEpoch.val % 86400).toNat
  let disk ← gather { cwd := components cwd.toString, home := components home, files := [] } args
  let ending ← persist disk clock args 1024
  IO.print ending.console.out
  IO.eprint ending.console.err
  match ending.written with
  | none => return ending.code.toUInt32
  | some (path, text) =>
    try
      IO.FS.createDirAll (Path.text path.dropLast)
      IO.FS.writeFile path.text text
      return ending.code.toUInt32
    catch e =>
      IO.eprintln ((⟨.error, "turlang", "Unhandled exception: " ++ toString e⟩ :
        TapeLang.LogRecord).stamped clock)
      return 2
