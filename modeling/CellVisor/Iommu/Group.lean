import CellVisor.Cell.Id
import CellVisor.Pci.Address

/-!
# CellVisor.Iommu.Group

Devices that share a remapping domain. They always belong to one cell, so the owner is kept once
for the group.

* `contains_iff`: the test for members goes by the list of them.
-/

namespace CellVisor

structure IommuGroup where
  id : UInt32
  owner : CellId
  /-- The members, in the order in which they were added. -/
  devices : List Pci.Address := []
  deriving Repr, DecidableEq

namespace IommuGroup

def maxDevices : Nat := 16

def contains (group : IommuGroup) (address : Pci.Address) : Bool := address ∈ group.devices

/-- With one more member; a member that is added again is there once, and a full group takes no new
one. -/
def add (group : IommuGroup) (address : Pci.Address) : Except Error IommuGroup :=
  if group.contains address then .ok group
  else if group.devices.length < maxDevices then
    .ok { group with devices := group.devices ++ [address] }
  else .error .resourceExhausted

def setOwner (group : IommuGroup) (owner : CellId) : IommuGroup := { group with owner }

theorem contains_iff {group : IommuGroup} {address : Pci.Address} :
    group.contains address = true ↔ address ∈ group.devices :=
  decide_eq_true_iff

end IommuGroup
end CellVisor
