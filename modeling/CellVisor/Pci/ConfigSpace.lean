import CellVisor.Action

/-!
# CellVisor.Pci.ConfigSpace

The configuration space of the functions on the PCI buses: identities, capability lists and the
functions that are present. All of it is read from a `ConfigSpace`, which gives a dword for each
address and byte offset.
-/

namespace CellVisor
namespace Pci

/-- The dword of a function at a byte offset. -/
abbrev ConfigSpace := Address → UInt16 → UInt32

structure Identity where
  vendor : UInt16
  device : UInt16
  baseClass : UInt8
  deriving Repr, DecidableEq

def displayClass : UInt8 := 0x03

def Identity.isDisplay (identity : Identity) : Bool := identity.baseClass == displayClass

inductive Walk
  | found (offset : UInt8)
  | absent
  /-- The list goes on after as many entries as fit into the space. -/
  | unterminated
  deriving Repr, DecidableEq

namespace ConfigSpace

/-- The identity of the function at `address`; none where the vendor is that of an empty slot. -/
def identity? (space : ConfigSpace) (address : Address) : Option Identity :=
  let ids := space address 0x00
  let vendor := ids.toUInt16
  if vendor = 0xFFFF ∨ vendor = 0 then none
  else some
    { vendor
      device := (ids >>> 16).toUInt16
      baseClass := (space address 0x08 >>> 24).toUInt8 }

/-- Whether function 0 at `address` announces more functions. -/
def isMultifunction (space : ConfigSpace) (address : Address) : Bool :=
  space address 0x0C &&& 0x00800000 ≠ 0

/-- Whether the function at `address` has a capability list. -/
def hasCapabilities (space : ConfigSpace) (address : Address) : Bool :=
  space address 0x04 &&& 0x00100000 ≠ 0

/-- Where the capability list starts; zero for an empty list. -/
def headPointer (space : ConfigSpace) (address : Address) : UInt8 :=
  (space address 0x34).toUInt8 &&& 0xFC

/-- The capability that the header at `offset` announces. -/
def capabilityId (space : ConfigSpace) (address : Address) (offset : UInt8) : UInt8 :=
  (space address offset.toUInt16).toUInt8

/-- Where the list goes on after the entry at `offset`; zero at its end. -/
def nextPointer (space : ConfigSpace) (address : Address) (offset : UInt8) : UInt8 :=
  (space address offset.toUInt16 >>> 8).toUInt8 &&& 0xFC

/-- As many entries of a dword each as fit behind the header of the space. -/
def maxCapabilities : Nat := 48

/-- Looks at up to `limit` entries, from the one at `offset` on. -/
def walk (space : ConfigSpace) (address : Address) (id : UInt8) : Nat → UInt8 → Walk
  | 0, _ => .unterminated
  | limit + 1, offset =>
    if offset = 0 then .absent
    else if space.capabilityId address offset = id then .found offset
    else walk space address id limit (space.nextPointer address offset)

/-- The offset of the first capability `id` in the list of the function at `address`. A list that
does not end is reported, and counts as one without the capability. -/
def findCapability {σ : Type} (space : ConfigSpace) (address : Address) (id : UInt8) :
    Action σ (Option UInt8) :=
  if space.hasCapabilities address then
    match space.walk address id maxCapabilities (space.headPointer address) with
    | .found offset => pure (some offset)
    | .absent => pure none
    | .unterminated => do
      Action.note (.listUnterminated address)
      pure none
  else pure none

/-- The functions to look at in a slot where function 0 is present: all eight of a multi-function
device, otherwise only the first. -/
def slotFunctions (space : ConfigSpace) (bus device : UInt8) : List Address :=
  if space.isMultifunction ⟨bus, device, 0⟩ then
    (List.range 8).map fun function => ⟨bus, device, UInt8.ofNat function⟩
  else [⟨bus, device, 0⟩]

/-- The functions to look at on a bus, slot by slot. -/
def busFunctions (space : ConfigSpace) (bus : UInt8) : List Address :=
  (List.range 32).flatMap fun device =>
    if (space.identity? ⟨bus, UInt8.ofNat device, 0⟩).isSome then
      space.slotFunctions bus (UInt8.ofNat device)
    else []

/-- Every present function of every bus with its identity, in the order of the addresses. -/
def functions (space : ConfigSpace) : List (Address × Identity) :=
  (List.range 256).flatMap fun bus =>
    (space.busFunctions (UInt8.ofNat bus)).filterMap fun address =>
      (space.identity? address).map fun identity => (address, identity)

end ConfigSpace
end Pci
end CellVisor
