/-!
# CellVisor.Cpu.Source

Where the number of cores was learned from.
-/

namespace CellVisor

inductive CountSource
  /-- The core level of the extended topology leaf. -/
  | extendedTopology
  /-- The count of logical processors in leaf 1. -/
  | legacy
  /-- Nothing was reported, one core is assumed. -/
  | fallback
  deriving Repr, DecidableEq

namespace CountSource

def name : CountSource → String
  | extendedTopology => "ExtendedTopology"
  | legacy => "Legacy"
  | fallback => "Fallback"

end CountSource
end CellVisor
