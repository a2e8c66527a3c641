import CellVisor.Error
import CellVisor.Log.Record

/-!
# CellVisor.Log.Console

The console that log records are written to. It is installed once.
-/

namespace CellVisor

/-- Whether a console is installed, and the records written to it. -/
structure Console where
  installed : Bool := false
  records : List LogRecord := []
  deriving Repr, DecidableEq

namespace Console

/-- Installs the console, unless one is installed already. -/
def install (console : Console) : Except Error Console :=
  if console.installed then .error .invalidState else .ok { console with installed := true }

/-- Writes a record; without an installed console it is lost. -/
def write (console : Console) (record : LogRecord) : Console :=
  if console.installed ∧ record.level.rank ≤ LogLevel.greatest.rank then
    { console with records := console.records ++ [record] }
  else console

end Console
end CellVisor
