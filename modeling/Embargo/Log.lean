import Embargo.Text.Feed

/-!
# Logging

* `Level` – how important a log record is, with its number.
* `Verbosity` – how much a user wants to see, and the least level that this shows.
* `Logger.nameOf` – the full name of the logger of a part of the library.
* `LogRecord.lines` – the lines of a record in a log file, behind the time.
-/

namespace Embargo

/-- How important a log record is. -/
inductive Level where
  | debug
  | info
  | warning
  | error
  | critical
  deriving DecidableEq

namespace Level

/-- The number of a level: more important levels have greater numbers. -/
def number : Level → Nat
  | .debug => 10
  | .info => 20
  | .warning => 30
  | .error => 40
  | .critical => 50

/-- The name of a level. -/
def name : Level → Text
  | .debug => "DEBUG".toText
  | .info => "INFO".toText
  | .warning => "WARNING".toText
  | .error => "ERROR".toText
  | .critical => "CRITICAL".toText

/-- All levels. -/
def all : List Level := [.debug, .info, .warning, .error, .critical]

/-- The level with a name. -/
def ofName? (t : Text) : Option Level := all.find? fun l => l.name = t

/-- Records of this level are kept where `threshold` is the least level shown. -/
def reaches (level threshold : Level) : Bool := threshold.number ≤ level.number

end Level

/-- How much a user wants to see. -/
inductive Verbosity where
  | quiet
  | normal
  | verbose
  deriving DecidableEq

namespace Verbosity

/-- The name of a verbosity in settings. -/
def name : Verbosity → Text
  | .quiet => "quiet".toText
  | .normal => "normal".toText
  | .verbose => "verbose".toText

/-- All verbosities. -/
def all : List Verbosity := [.quiet, .normal, .verbose]

/-- The verbosity with a name. -/
def ofName? (t : Text) : Option Verbosity := all.find? fun v => v.name = t

/-- The least level that is shown. -/
def level : Verbosity → Level
  | .quiet => .error
  | .normal => .info
  | .verbose => .debug

@[simp] theorem ofName?_name (v : Verbosity) : ofName? v.name = some v := by
  cases v <;> rfl

end Verbosity

namespace Logger

/-- The name of the logger above all others of the library. -/
def root : Text := "sigwarden".toText

/-- The full name of a logger: a name that does not begin with the root's goes below the root. -/
def nameOf : Option Text → Text
  | none => root
  | some name => if root.isPrefixOf name then name else root ++ ".".toText ++ name

end Logger

/-- A message at a level. -/
structure LogRecord where
  /-- How important it is. -/
  level : Level
  /-- What it says. -/
  message : Text
  deriving DecidableEq

namespace LogRecord

/-- The record as it is written to a log file, behind the time. -/
def line (record : LogRecord) (logger : Text) : Text :=
  logger ++ " - ".toText ++ record.level.name ++ " - ".toText ++ record.message

/-- A character that ends a line, over all of Unicode; a carriage return and a line feed in one end
one line together. -/
def endsLine (c : CodePoint) : Bool :=
  let code := c.toNat
  (0x0A ≤ code && code ≤ 0x0D) || (0x1C ≤ code && code ≤ 0x1E) || code = 0x85 || code = 0x2028 ||
    code = 0x2029

/-- The lines of a record in a log file, where a line feed follows each record. -/
def lines (record : LogRecord) (logger : Text) : List Text :=
  let written := Feed.unifyLineEnds (record.line logger ++ "\n".toText)
  (Text.split '\n' (written.map fun c => if endsLine c then '\n' else c)).dropLast

/-- The records that are kept where `threshold` is the least level shown. -/
def kept (threshold : Level) (records : List LogRecord) : List LogRecord :=
  records.filter fun record => record.level.reaches threshold

end LogRecord
end Embargo
