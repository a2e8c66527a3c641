import CellVisor.Cell.Id
import CellVisor.Memory.Extent

/-!
# CellVisor.Config

The partition of a machine as it is fixed before boot: cores, memory, stores, device owners, timing.
`Config.validate` refuses layouts that the control plane could not run.
-/

namespace CellVisor

/-- Where a cell's memory is, and where its image is kept while it is hibernated. The guest starts
at the base of its memory. -/
structure CellLayout where
  memory : Extent
  store : Extent
  deriving Repr, DecidableEq

/-- Devices of `vendor` belong to `owner` at first. -/
structure VendorOwner where
  vendor : UInt16
  owner : CellId
  deriving Repr, DecidableEq

structure Config where
  /-- Cores of the linux cell; without a number it gets half of them, rounded up. -/
  linuxCores : Option UInt32
  hypervisor : Extent
  /-- What the memory of the two cells must add up to. -/
  guestMemory : UInt64
  cells : PerCell CellLayout
  deviceOwners : List VendorOwner
  /-- How long a freeze or thaw may take, in microseconds. -/
  freezeTimeout : UInt64
  /-- Images are copied and counted in blocks of this size. -/
  blockSize : UInt64
  deriving Repr, DecidableEq

namespace Config

def vendorAmd : UInt16 := 0x1002
def vendorNvidia : UInt16 := 0x10DE

/-- Two cells of 16 GiB in 32 GiB of guest memory. -/
def standard : Config where
  linuxCores := none
  hypervisor := ⟨mib, 256 * mib⟩
  guestMemory := 32 * gib
  cells :=
    { linux := { memory := ⟨4 * gib, 16 * gib⟩, store := ⟨36 * gib, 16 * gib⟩ }
      windows := { memory := ⟨20 * gib, 16 * gib⟩, store := ⟨52 * gib, 16 * gib⟩ } }
  deviceOwners := [⟨vendorAmd, .linux⟩, ⟨vendorNvidia, .windows⟩]
  freezeTimeout := 100000
  blockSize := 2 * mib

/-- Two cells of 8 MiB, for a machine with little memory. -/
def compact : Config :=
  { standard with
    hypervisor := ⟨mib, 16 * mib⟩
    guestMemory := 16 * mib
    cells :=
      { linux := { memory := ⟨64 * mib, 8 * mib⟩, store := ⟨128 * mib, 8 * mib⟩ }
        windows := { memory := ⟨72 * mib, 8 * mib⟩, store := ⟨136 * mib, 8 * mib⟩ } } }

def ownerForVendor (config : Config) (vendor : UInt16) : Option CellId :=
  (config.deviceOwners.find? fun entry => entry.vendor = vendor).map VendorOwner.owner

/-- The private region, the memory of the cells and their stores. -/
def extents (config : Config) : List Extent :=
  [config.hypervisor, config.cells.linux.memory, config.cells.windows.memory,
    config.cells.linux.store, config.cells.windows.store]

/-- Adds the memory of a cell to `covered`, if the cell has memory and a store that can hold it. -/
def cover (covered : UInt64) (layout : CellLayout) : Except Error UInt64 :=
  if layout.memory.size = 0 then .error (.config .cellMemoryEmpty)
  else if layout.store.size < layout.memory.size then .error (.config .storeSmallerThanCell)
  else match Word.add? covered layout.memory.size with
    | some total => .ok total
    | none => .error (.config .cellMemoryOverflows)

/-- Each range must end inside the address space and meet none of the later ones. -/
def checkExtents : List Extent → Except Error Unit
  | [] => .ok ()
  | extent :: later =>
    if !extent.fits then .error (.config .regionEndOverflows)
    else if later.any extent.overlaps then .error (.config .regionsOverlap)
    else checkExtents later

/-- Refuses a layout with an empty region, cells that do not add up to the guest memory, a store
smaller than its cell, two ranges that share an address, or parameters the control plane cannot work
with. Of several faults the first in this order is reported: private region, cells, total, ranges,
block size, timeout, cores. -/
def validate (config : Config) : Except Error Unit := do
  if config.hypervisor.size = 0 then throw (.config .hypervisorRegionEmpty)
  let covered ← cover 0 config.cells.linux
  let covered ← cover covered config.cells.windows
  if covered ≠ config.guestMemory then throw (.config .guestTotalNotCovered)
  checkExtents config.extents
  if !Word.isPowerOfTwo config.blockSize then throw (.config .blockSizeNotPowerOfTwo)
  if config.freezeTimeout = 0 then throw (.config .freezeTimeoutZero)
  if config.linuxCores = some 0 then throw (.config .noLinuxCores)

end Config
end CellVisor
