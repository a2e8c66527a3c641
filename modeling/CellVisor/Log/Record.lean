import CellVisor.Text.Column

/-!
# CellVisor.Log.Record

Records of the console log and the lines they are written as.
-/

namespace CellVisor

/-- How important a record is, the most important first. -/
inductive LogLevel
  | error
  | warn
  | info
  | debug
  | trace
  deriving Repr, DecidableEq

namespace LogLevel

def rank : LogLevel → Nat
  | error => 1
  | warn => 2
  | info => 3
  | debug => 4
  | trace => 5

def name : LogLevel → String
  | error => "ERROR"
  | warn => "WARN"
  | info => "INFO"
  | debug => "DEBUG"
  | trace => "TRACE"

/-- The level up to which the console takes records at all. -/
def greatest : LogLevel := trace

end LogLevel

/-- A message with its level and the component that it comes from. -/
structure LogRecord where
  level : LogLevel
  target : String
  message : String
  deriving Repr, DecidableEq

namespace LogRecord

/-- The record as it is written to the console; a message of several lines stays one record. -/
def text (record : LogRecord) : String :=
  "[" ++ Column.left 5 record.level.name ++ "] " ++ record.target ++ ": " ++ record.message

/-- Whether a console limited to `limit` writes this record; without a limit it writes none. -/
def isWritten (limit : Option LogLevel) (record : LogRecord) : Bool :=
  match limit with
  | some level => record.level.rank ≤ level.rank
  | none => false

/-- The console lines of `records`, under a limit. -/
def lines (limit : Option LogLevel) (records : List LogRecord) : List String :=
  (records.filter (isWritten limit)).flatMap fun record => record.text.splitOn "\n"

end LogRecord
end CellVisor
