import CellVisor.Config
import CellVisor.Iommu.Group
import CellVisor.Machine

/-!
# CellVisor.Iommu.Directory

The devices that are passed through to the cells: the remapping controller that confines them,
their groups and the owners of the groups. A machine whose controller is missing or does not work
still boots, and says that its devices are not confined.
-/

namespace CellVisor

/-- A remapping controller with the base of its registers. -/
structure Controller where
  address : Pci.Address
  kind : ControllerKind
  base : UInt64
  deriving Repr, DecidableEq

namespace Controller

def controlRegister (controller : Controller) : UInt64 := controller.base + 0x18

/-- The bits that switch on remapping (bit 0) and coherence (bit 17). -/
def enforcementBits : UInt32 := 0x00020001

/-- The capability that holds the base of the registers. -/
def capabilityId : UInt8 := 0x0F

def kindOf (identity : Pci.Identity) : Option ControllerKind :=
  if identity.vendor = 0x1022 ∧ 0x1447 ≤ identity.device ∧ identity.device ≤ 0x1457 then some .amdVi
  else none

/-- The base in the two dwords after the capability header at `offset`: a multiple of 4 KiB. -/
def baseAt (space : Pci.ConfigSpace) (address : Pci.Address) (offset : UInt8) : UInt64 :=
  let low := space address (offset.toUInt16 + 4)
  let high := space address (offset.toUInt16 + 8)
  (high.toUInt64 <<< 32) ||| (low &&& 0xFFFFF000).toUInt64

/-- The controller at `address`, if there is a known one with a base. One without is reported. -/
def probe {σ : Type} (space : Pci.ConfigSpace) (address : Pci.Address) :
    Action σ (Option Controller) :=
  match (space.identity? address).bind kindOf with
  | none => pure none
  | some kind => do
    match ← space.findCapability address capabilityId with
    | none =>
      Action.note (.controllerWithoutCapability address)
      pure none
    | some offset =>
      let base := baseAt space address offset
      if base = 0 then
        Action.note (.controllerWithoutBase address)
        pure none
      else
        pure (some { address, kind, base })

def firstOf {σ : Type} (space : Pci.ConfigSpace) : List Pci.Address → Action σ (Option Controller)
  | [] => pure none
  | address :: rest => do
    match ← probe space address with
    | some controller => pure (some controller)
    | none => firstOf space rest

end Controller

structure Directory where
  controller : Option Controller := none
  groups : List IommuGroup := []
  enforcing : Bool := false
  verificationFailed : Bool := false
  deriving Repr, DecidableEq

namespace Directory

def maxGroups : Nat := 64

/-- Looks for a controller on bus 0, in the order of the addresses. What was known of a controller
is forgotten first. -/
def detect (space : Pci.ConfigSpace) : Action Directory Controller := do
  Action.update fun directory => { directory with controller := none }
  match ← Controller.firstOf space (space.busFunctions 0) with
  | some controller =>
    Action.note (.controllerFound controller.kind controller.address controller.base)
    Action.update fun directory => { directory with controller := some controller }
    pure controller
  | none => Action.fail (.unavailable .iommu)

/-- Adds a group for each display device whose vendor has an owner. The first device that no longer
fits ends it. -/
def groupDevices (ownerFor : UInt16 → Option CellId) :
    List (Pci.Address × Pci.Identity) → Action Directory Unit
  | [] => pure ()
  | (address, identity) :: rest =>
    if identity.isDisplay then
      match ownerFor identity.vendor with
      | none => do
        Action.note (.vendorUnmapped address identity.vendor)
        groupDevices ownerFor rest
      | some owner => do
        let count := (← Action.get).groups.length
        let group ← Action.ofExcept (IommuGroup.add ⟨UInt32.ofNat count, owner, []⟩ address)
        if maxGroups ≤ count then
          Action.fail .resourceExhausted
        Action.update fun directory => { directory with groups := directory.groups ++ [group] }
        Action.note (.deviceGrouped count address owner)
        groupDevices ownerFor rest
    else groupDevices ownerFor rest

/-- Builds the groups anew, one for each display device whose vendor has an owner, and gives their
number. The groups that fit are kept when there are too many. -/
def setupGroups (space : Pci.ConfigSpace) (ownerFor : UInt16 → Option CellId) :
    Action Directory Nat := do
  Action.update fun directory => { directory with groups := [] }
  match ← (groupDevices ownerFor space.functions).attempt with
  | .ok () => pure (← Action.get).groups.length
  | .error error =>
    Action.note (.groupsExhausted maxGroups)
    Action.fail error

def groupOf (directory : Directory) (address : Pci.Address) : Option IommuGroup :=
  directory.groups.find? fun group => group.contains address

/-- The cell that owns the device at `address`; none for a device in no group. -/
def ownerOf (directory : Directory) (address : Pci.Address) : Option CellId :=
  (directory.groupOf address).map IommuGroup.owner

def isLinuxDevice (directory : Directory) (address : Pci.Address) : Bool :=
  directory.ownerOf address = some .linux

/-- Gives the first group that has `address` to `owner`. -/
def reown (address : Pci.Address) (owner : CellId) : List IommuGroup → List IommuGroup
  | [] => []
  | group :: rest =>
    if group.contains address then group.setOwner owner :: rest
    else group :: reown address owner rest

def assign (address : Pci.Address) (owner : CellId) : Action Directory Unit := do
  match (← Action.get).groupOf address with
  | none => Action.fail (.config .deviceInNoGroup)
  | some group =>
    if group.owner ≠ owner then
      Action.note (.groupMoved group.id group.owner owner)
      Action.update fun directory =>
        { directory with groups := reown address owner directory.groups }

def isolation (directory : Directory) : Isolation :=
  if directory.enforcing then .enforced else .degraded

def status (directory : Directory) : IommuStatus :=
  if directory.controller.isNone then .notDetected
  else if directory.enforcing then .enforcing
  else if directory.verificationFailed then .verificationFailed
  else .detected

end Directory

structure Devices (M : Type) where
  machine : M
  directory : Directory

namespace Devices

variable {M : Type} {α : Type}

def modifyDirectory (change : Directory → Directory) : Action (Devices M) Unit :=
  Action.update fun devices => { devices with directory := change devices.directory }

def onDirectory (action : Action Directory α) : Action (Devices M) α :=
  action.zoom directory fun directory devices => { devices with directory }

/-- Switches remapping on, and checks that the register took it. -/
def enable [Mmio M] : Action (Devices M) Unit := do
  let devices ← Action.get
  match devices.directory.controller with
  | none =>
    modifyDirectory fun directory => { directory with enforcing := false }
    Action.fail (.unavailable .iommu)
  | some controller =>
    let register := controller.controlRegister
    let value := Mmio.mmioRead devices.machine register ||| Controller.enforcementBits
    let machine := Mmio.mmioWrite register value devices.machine
    Action.update fun devices => { devices with machine }
    if Mmio.mmioRead machine register &&& Controller.enforcementBits
        = Controller.enforcementBits then
      modifyDirectory fun directory =>
        { directory with enforcing := true, verificationFailed := false }
      Action.note .enforcementEnabled
    else
      modifyDirectory fun directory =>
        { directory with enforcing := false, verificationFailed := true }
      Action.fail (.verificationFailure register)

def reporting (notice : Error → Notice) (action : Action (Devices M) α) :
    Action (Devices M) Unit := do
  match ← action.attempt with
  | .ok _ => pure ()
  | .error error => Action.note (notice error)

variable [Board M]

def detect : Action (Devices M) Controller := do
  onDirectory (Directory.detect (Board.configSpace (← Action.get).machine))

def setupGroups (config : Config) : Action (Devices M) Nat := do
  onDirectory
    (Directory.setupGroups (Board.configSpace (← Action.get).machine) config.ownerForVendor)

/-- Looks for the controller, groups the devices and switches remapping on, as far as possible. -/
def init (config : Config) : Action (Devices M) Isolation := do
  reporting .detectionFailed detect
  reporting .groupingIncomplete (setupGroups config)
  reporting .enforcementFailed enable
  let directory := (← Action.get).directory
  if directory.isolation = .degraded then
    Action.note (.isolationNotEnforced directory.status)
  pure directory.isolation

end Devices
end CellVisor
