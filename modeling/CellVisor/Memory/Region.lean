import CellVisor.Cell.Id
import CellVisor.Memory.Extent
import CellVisor.Text.Column

/-!
# CellVisor.Memory.Region

Labelled memory regions with an owner, and the table in which they are shown.
-/

namespace CellVisor

inductive RegionOwner
  | cell (id : CellId)
  | hypervisor
  deriving Repr, DecidableEq

namespace RegionOwner

def name : RegionOwner → String
  | cell id => id.name
  | hypervisor => "hypervisor"

instance : ToString RegionOwner := ⟨name⟩

end RegionOwner

/-- A part of physical memory with one owner. -/
structure Region extends Extent where
  label : String
  owner : RegionOwner
  deriving Repr, DecidableEq

namespace Region

/-- A line of the region table: the bounds in twelve digits, the size in whole MiB. -/
def line (region : Region) : String :=
  "  " ++ Hex.markedPadded 12 region.base.toNat ++ "-" ++ Hex.markedPadded 12 region.stop.toNat ++
    " " ++ Column.right 6 (toString (region.size / mib)) ++ " MiB  " ++ region.label ++
    " (" ++ region.owner.name ++ ")"

end Region

/-- The regions of a machine and how far the private region is used up. -/
structure RegionTable where
  regions : List Region
  used : UInt64
  remaining : UInt64
  deriving Repr, DecidableEq

namespace RegionTable

def text (table : RegionTable) : String :=
  String.join (table.regions.map fun region => region.line ++ "\n") ++
    s!"  hypervisor allocator: {table.used} bytes used, {table.remaining} free"

end RegionTable
end CellVisor
