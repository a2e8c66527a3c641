import CellVisor.Action

/-!
# CellVisor.Sim.Device

A simulated PCI function: 64 dwords of configuration space, in which capabilities are laid out one
after the other and linked to a list.
-/

namespace CellVisor
namespace Sim

structure Device where
  dwords : Vector UInt32 64
  nextCapability : UInt16
  lastCapability : Option UInt16
  deriving Repr, DecidableEq

namespace Device

/-- A function with an identity and no capabilities. -/
def ofIdentity (vendor device : UInt16) (baseClass : UInt8) : Device where
  dwords :=
    ((Vector.replicate 64 (0 : UInt32)).set 0 ((device.toUInt32 <<< 16) ||| vendor.toUInt32)).set 2
      (baseClass.toUInt32 <<< 24)
  nextCapability := 0x40
  lastCapability := none

/-- The dword at a byte offset; every bit is set outside the space. -/
def read (device : Device) (offset : UInt16) : UInt32 :=
  device.dwords[(offset / 4).toNat]?.getD 0xFFFFFFFF

/-- Replaces the dword at a byte offset, if it is inside the space. -/
def write (device : Device) (offset : UInt16) (value : UInt32) : Device :=
  { device with dwords := device.dwords.setIfInBounds (offset / 4).toNat value }

/-- Replaces the dword with an index, which must be inside the space. -/
def put? (dwords : Vector UInt32 64) (index : Nat) (value : UInt32) : Option (Vector UInt32 64) :=
  if h : index < 64 then some (dwords.set index value) else none

def putList? (dwords : Vector UInt32 64) (index : Nat) : List UInt32 → Option (Vector UInt32 64)
  | [] => some dwords
  | value :: rest => do putList? (← put? dwords index value) (index + 1) rest

def setBits? (dwords : Vector UInt32 64) (index : Nat) (bits : UInt32) :
    Option (Vector UInt32 64) :=
  if h : index < 64 then some (dwords.set index (dwords[index] ||| bits)) else none

/-- The function announces more functions of its device. -/
def setMultifunction (device : Device) : Device :=
  { device with dwords := device.dwords.set 3 (device.dwords[3] ||| 0x00800000) }

/-- Appends a capability: its header, then its payload, then the link to it from the one before or,
for the first, from the head of the list. Fails where it does not fit into the space. -/
def addCapability? (device : Device) (id : UInt8) (payload : List UInt32) : Option Device := do
  let offset := device.nextCapability
  let dwords ← putList? device.dwords (offset.toNat / 4) (id.toUInt32 :: payload)
  let dwords ← match device.lastCapability with
    | some last => setBits? dwords (last.toNat / 4) (offset.toUInt32 <<< 8)
    | none => setBits? (dwords.set 13 offset.toUInt32) 1 0x00100000
  pure
    { dwords
      nextCapability := offset + 4 * (1 + UInt16.ofNat payload.length)
      lastCapability := some offset }

end Device
end Sim
end CellVisor
