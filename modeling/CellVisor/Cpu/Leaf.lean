/-!
# CellVisor.Cpu.Leaf

What a processor says about itself: four registers for every leaf and subleaf.
-/

namespace CellVisor

/-- The four registers that answer a query. -/
structure Leaf where
  eax : UInt32 := 0
  ebx : UInt32 := 0
  ecx : UInt32 := 0
  edx : UInt32 := 0
  deriving Repr, DecidableEq, Inhabited

/-- A processor's answers, by leaf and subleaf. -/
abbrev Leaves := UInt32 → UInt32 → Leaf

namespace Leaves

def currentCore (leaves : Leaves) : UInt32 := (leaves 1 0).ebx >>> 24

end Leaves
end CellVisor
