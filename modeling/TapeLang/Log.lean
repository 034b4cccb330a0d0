import TapeLang.Text.Pad

/-!
# Log records

What a program notes about its own work. Functions return their records as values; the outer layer
decides which of them to show.

* `Level`, `LogRecord`: a level, the part of the program that speaks, and the message.
* `LogRecord.text`, `LogRecord.stamped`: a record as a line, without and with a time.
-/

namespace TapeLang

/-- How urgent a record is. -/
inductive Level where
  | debug
  | info
  | warning
  | error
  deriving DecidableEq, Repr

namespace Level

/-- The name of a level. -/
def text : Level → String
  | .debug => "DEBUG"
  | .info => "INFO"
  | .warning => "WARNING"
  | .error => "ERROR"

/-- The rank of a level; a higher one is more urgent. -/
def rank : Level → Nat
  | .debug => 0
  | .info => 1
  | .warning => 2
  | .error => 3

end Level

/-- One note of the program. -/
structure LogRecord where
  level : Level
  /-- The part of the program that speaks. -/
  source : String
  message : String
  deriving DecidableEq, Repr

namespace LogRecord

/-- Level, source and message. -/
def text (r : LogRecord) : String := r.level.text ++ " " ++ r.source ++ ": " ++ r.message

/-- The record behind a time of day, with its level cut or filled to five characters. -/
def stamped (clock : String) (r : LogRecord) : String :=
  let level := String.ofList ((Text.padEnd 5 ' ' r.level.text).toList.take 5)
  clock ++ " [" ++ level ++ "] " ++ r.source ++ ": " ++ r.message

end LogRecord

end TapeLang
