import CellVisor.Config
import CellVisor.Memory.Bump

/-!
# CellVisor.Memory.Partition

The memory of a machine by owner: a region for each cell, and the private region of the hypervisor
with its allocator. The stores of the cells belong to nobody.
-/

namespace CellVisor

structure MemoryPartition where
  cells : PerCell Region
  hypervisor : Region
  allocator : Bump
  deriving Repr, DecidableEq

namespace MemoryPartition

def ofConfig (config : Config) : MemoryPartition where
  cells :=
    { linux := ⟨config.cells.linux.memory, "linux memory", .cell .linux⟩
      windows := ⟨config.cells.windows.memory, "windows memory", .cell .windows⟩ }
  hypervisor := ⟨config.hypervisor, "hypervisor private", .hypervisor⟩
  allocator := .ofExtent config.hypervisor

def regions (partition : MemoryPartition) : List Region :=
  partition.cells.toList ++ [partition.hypervisor]

def isOwnedBy (partition : MemoryPartition) (address : UInt64) (id : CellId) : Bool :=
  (partition.cells.get id).contains address

/-- The owner of the first region that has `address`. -/
def ownerOf (partition : MemoryPartition) (address : UInt64) : Option RegionOwner :=
  (partition.regions.find? fun region => region.contains address).map Region.owner

def onAllocator {α : Type} (action : Action Bump α) : Action MemoryPartition α :=
  action.zoom allocator fun allocator partition => { partition with allocator }

def allocate (size : UInt64) : Action MemoryPartition UInt64 := onAllocator (Bump.allocate size)

def allocateAligned (size align : UInt64) : Action MemoryPartition UInt64 :=
  onAllocator (Bump.allocateAligned size align)

def free (address size : UInt64) (partition : MemoryPartition) : MemoryPartition :=
  { partition with allocator := partition.allocator.free address size }

def table (partition : MemoryPartition) : RegionTable where
  regions := partition.regions
  used := partition.allocator.stats.used
  remaining := partition.allocator.stats.remaining

end MemoryPartition
end CellVisor
