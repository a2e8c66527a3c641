import CellVisor.Cpu.Features
import CellVisor.Iommu.Directory
import CellVisor.Memory.Partition
import CellVisor.Switch.Coordinator

/-!
# CellVisor.Hypervisor

The control plane of a machine: brought up once by `Hypervisor.boot`, and then asked to switch
cells, to move devices, to allocate, and for its status.
-/

namespace CellVisor

def version : String := "0.1.0"

structure Hypervisor (M : Type) where
  shared : SharedHost M
  config : Config
  topology : Topology
  features : FeatureSet
  memory : MemoryPartition
  directory : Directory
  /-- Whether devices were confined when the machine was booted. -/
  isolation : Isolation

inductive Event
  | switchRequested
  deriving Repr, DecidableEq

namespace Hypervisor

variable {M : Type} {α : Type}

def machine (hypervisor : Hypervisor M) : M := hypervisor.shared.host.machine

def cells (hypervisor : Hypervisor M) : Cells := hypervisor.shared.host.cells

def coordinator (hypervisor : Hypervisor M) : Coordinator := hypervisor.shared.coordinator

def activeCell (hypervisor : Hypervisor M) : CellId := hypervisor.coordinator.active

def status (hypervisor : Hypervisor M) : Snapshot := hypervisor.coordinator.board.latest

def deviceOwner (hypervisor : Hypervisor M) (address : Pci.Address) : Option CellId :=
  hypervisor.directory.ownerOf address

/-- Whether a device belongs to linux. An address that cannot exist does not. -/
def isLinuxDevice (hypervisor : Hypervisor M) (bus device function : UInt8) : Bool :=
  let address : Pci.Address := ⟨bus, device, function⟩
  address.isValid && hypervisor.directory.isLinuxDevice address

def onShared (action : Action (SharedHost M) α) : Action (Hypervisor M) α :=
  action.zoom shared fun shared hypervisor => { hypervisor with shared }

def onDirectory (action : Action Directory α) : Action (Hypervisor M) α :=
  action.zoom directory fun directory hypervisor => { hypervisor with directory }

def onMemory (action : Action MemoryPartition α) : Action (Hypervisor M) α :=
  action.zoom memory fun memory hypervisor => { hypervisor with memory }

/-- Moves a device to `target`. That is refused while the cell that owns it runs, since the device
may be writing to its memory. -/
def reassign (address : Pci.Address) (target : CellId) : Action (Hypervisor M) Unit := do
  let hypervisor ← Action.get
  match hypervisor.deviceOwner address with
  | none => Action.fail (.config .deviceInNoGroup)
  | some current =>
    if current ≠ target then
      if hypervisor.cells.state current = .running then
        Action.note (.reassignmentRefused address current)
        Action.fail .invalidState
      else
        onDirectory (Directory.assign address target)

def allocate (size : UInt64) : Action (Hypervisor M) UInt64 :=
  onMemory (MemoryPartition.allocate size)

variable [Board M]

/-- Hands the machine to the other cell, and gives that cell. -/
def switch : Action (Hypervisor M) CellId := onShared SharedHost.switch

def handle : Event → Action (Hypervisor M) Unit
  | .switchRequested => do
    let _ ← switch

/-- Brings up the devices: gives the directory and whether it confines them. -/
def bootDevices (config : Config) : Action M (Directory × Isolation) :=
  Action.around (fun machine => { machine, directory := {} }) Devices.machine do
    let isolation ← Devices.init config
    pure ((← Action.get).directory, isolation)

def bootCells (config : Config) (topology : Topology) : Action M Cells :=
  Action.around (fun machine => { machine, cells := .fresh config topology }) Host.machine do
    Host.boot
    pure (← Action.get).cells

/-- Brings up every component. Only an invalid configuration stops it: features that are missing,
devices that are not confined and standby cores that do not park are reported, and boot goes on. -/
def boot (config : Config) : Action M (Hypervisor M) := do
  Action.note (.starting version)
  Action.ofExcept config.validate
  let topology ← Topology.probe (Board.leaves (← Action.get)) config.linuxCores
  let features ← FeatureSet.enable
  let memory := MemoryPartition.ofConfig config
  Action.note (.memoryLayout memory.table)
  let (directory, isolation) ← bootDevices config
  let cells ← bootCells config topology
  let coordinator := Coordinator.ofCells cells isolation directory.status
  Action.note (.bootCompleted coordinator.active)
  let machine ← Action.get
  pure
    { shared := { host := { machine, cells }, coordinator }
      config
      topology
      features
      memory
      directory
      isolation }

end Hypervisor
end CellVisor
