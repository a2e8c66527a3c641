import CellVisor.Cell.State
import CellVisor.Cpu.CoreRange
import CellVisor.Cpu.FeatureSet
import CellVisor.Cpu.Source
import CellVisor.Iommu.Status
import CellVisor.Log.Record
import CellVisor.Memory.Region
import CellVisor.Pci.Address
import CellVisor.Signal

/-!
# CellVisor.Log.Notice

Everything the control plane reports while it works. A notice says what happened; its level, target
and wording are given by `Notice.record`, in one place.
-/

namespace CellVisor

inductive Notice
  -- cores
  | topologyUnavailable
  | coresClamped (reported : UInt32)
  | splitRefused (requested total : UInt32)
  | windowsOwnsNoCores
  | coresSplit (total : UInt32) (source : CountSource) (linux windows : CoreRange)
  -- features
  | featureUnavailable (capability : Capability)
  | sseNotLatched
  | xsaveNotLatched
  | nxNotLatched
  | featuresEnabled (features : FeatureSet)
  -- cells
  | cellEntered (id : CellId) (source target : CellState)
  | cellFailed (id : CellId) (source : CellState)
  | cellsBooted (standby : CoreRange)
  | parkingFailed (id : CellId) (error : Error)
  | cellHibernated (id : CellId) (blocks : UInt32)
  | hibernationFailed (id : CellId) (error : Error)
  | resumeRefused (id : CellId)
  | coldStart (id : CellId) (entry : UInt64)
  | cellResumed (id : CellId)
  | resumeFailed (id : CellId) (error : Error)
  -- barrier
  | acknowledged (signal : Signal) (cores : CoreRange)
  | barrierTimedOut (signal : Signal) (timeout : UInt64) (pending : UInt64)
  -- devices
  | listUnterminated (address : Pci.Address)
  | controllerFound (kind : ControllerKind) (address : Pci.Address) (base : UInt64)
  | controllerWithoutCapability (address : Pci.Address)
  | controllerWithoutBase (address : Pci.Address)
  | vendorUnmapped (address : Pci.Address) (vendor : UInt16)
  | deviceGrouped (group : Nat) (address : Pci.Address) (owner : CellId)
  | groupsExhausted (limit : Nat)
  | groupMoved (group : UInt32) (source target : CellId)
  | enforcementEnabled
  | detectionFailed (error : Error)
  | groupingIncomplete (error : Error)
  | enforcementFailed (error : Error)
  | isolationNotEnforced (status : IommuStatus)
  -- memory
  | allocationRefused (size remaining : UInt64)
  -- switching
  | switchRefused (active : CellId) (activeState otherState : CellState)
  | switching (source target : CellId)
  | switchAborted (target : CellId) (error : Error)
  | switchFailed (error : Error)
  | switchCompleted (count : UInt64) (active : CellId)
  -- hypervisor
  | starting (version : String)
  | memoryLayout (table : RegionTable)
  | bootCompleted (active : CellId)
  | reassignmentRefused (address : Pci.Address) (owner : CellId)
  deriving Repr, DecidableEq

namespace Notice

private def cpu : String := "concordia::cpu"
private def cpuFeatures : String := "concordia::cpu::features"
private def cell : String := "concordia::cell"
private def cellMachine : String := "concordia::cell::machine"
private def barrier : String := "concordia::cell::barrier"
private def pci : String := "concordia::iommu::pci"
private def iommu : String := "concordia::iommu"
private def memory : String := "concordia::mm::bump"
private def switch : String := "concordia::switch"
private def hypervisor : String := "concordia::vmm"

def record : Notice → LogRecord
  | topologyUnavailable => ⟨.warn, cpu, (Error.unavailable .extendedTopology).message⟩
  | coresClamped reported =>
    ⟨.warn, cpu, s!"{reported} cores reported, using the first {maxCores}"⟩
  | splitRefused requested total =>
    ⟨.error, cpu, (Error.config .coreSplitOutOfRange).message ++
      s!": {requested} linux cores requested, {total} detected"⟩
  | windowsOwnsNoCores => ⟨.warn, cpu, "windows cell owns no cores and cannot be resumed"⟩
  | coresSplit total source linux windows =>
    ⟨.info, cpu, s!"CPU: {total} cores ({source.name}), linux {linux}, windows {windows}"⟩
  | featureUnavailable capability => ⟨.warn, cpuFeatures, (Error.unavailable capability).message⟩
  | sseNotLatched => ⟨.warn, cpuFeatures, "CR4.OSFXSR did not latch"⟩
  | xsaveNotLatched => ⟨.warn, cpuFeatures, "XSAVE state enable did not latch"⟩
  | nxNotLatched => ⟨.warn, cpuFeatures, "EFER.NXE did not latch"⟩
  | featuresEnabled features => ⟨.info, cpuFeatures, "CPU features enabled: " ++ features.text⟩
  | cellEntered id source target => ⟨.debug, cell, s!"cell {id}: {source} -> {target}"⟩
  | cellFailed id source => ⟨.error, cell, s!"cell {id}: {source} -> error"⟩
  | cellsBooted standby =>
    ⟨.info, cellMachine, s!"cells booted: linux running, windows parked on cores {standby}"⟩
  | parkingFailed id error => ⟨.error, cellMachine, s!"parking {id} cores failed: {error}"⟩
  | cellHibernated id blocks =>
    ⟨.info, cellMachine, s!"cell {id} hibernated, {blocks} blocks saved"⟩
  | hibernationFailed id error =>
    ⟨.error, cellMachine, s!"hibernating cell {id} failed: {error}"⟩
  | resumeRefused id =>
    ⟨.warn, cellMachine, s!"refusing to resume {id} while {id.other} is running"⟩
  | coldStart id entry =>
    ⟨.info, cellMachine, s!"cell {id}: no saved image, cold start at " ++ Hex.marked entry.toNat⟩
  | cellResumed id => ⟨.info, cellMachine, s!"cell {id} resumed"⟩
  | resumeFailed id error => ⟨.error, cellMachine, s!"resuming cell {id} failed: {error}"⟩
  | acknowledged signal cores => ⟨.trace, barrier, s!"{signal} acknowledged by cores {cores}"⟩
  | barrierTimedOut signal timeout pending =>
    ⟨.error, barrier, s!"{signal} barrier timed out after {timeout} us, pending mask " ++
      Hex.marked pending.toNat⟩
  | listUnterminated address =>
    ⟨.warn, pci, s!"PCI {address}: capability list does not terminate"⟩
  | controllerFound kind address base =>
    ⟨.info, iommu, s!"IOMMU: {kind.name} at {address}, MMIO base " ++ Hex.marked base.toNat⟩
  | controllerWithoutCapability address =>
    ⟨.warn, iommu, s!"IOMMU {address} has no MMIO base capability"⟩
  | controllerWithoutBase address => ⟨.warn, iommu, s!"IOMMU {address} reports no MMIO base"⟩
  | vendorUnmapped address vendor =>
    ⟨.warn, iommu, s!"display device {address} from unmapped vendor " ++
      Hex.padded 4 vendor.toNat ++ ", left unassigned"⟩
  | deviceGrouped group address owner =>
    ⟨.info, iommu, s!"IOMMU group {group}: {address} -> {owner}"⟩
  | groupsExhausted limit =>
    ⟨.error, iommu, Error.resourceExhausted.message ++ s!": more than {limit} device groups"⟩
  | groupMoved group source target =>
    ⟨.info, iommu, s!"IOMMU group {group}: {source} -> {target}"⟩
  | enforcementEnabled =>
    ⟨.info, iommu, "IOMMU enforcement enabled (ControlFlags(ENABLE | COHERENT))"⟩
  | detectionFailed error => ⟨.warn, iommu, error.message⟩
  | groupingIncomplete error => ⟨.error, iommu, s!"device grouping incomplete: {error}"⟩
  | enforcementFailed error => ⟨.error, iommu, error.message⟩
  | isolationNotEnforced status =>
    ⟨.error, iommu, s!"!!! DEVICE ISOLATION NOT ENFORCED: IOMMU {status} !!!"⟩
  | allocationRefused size remaining =>
    ⟨.warn, memory, "hypervisor region exhausted: " ++ Hex.marked size.toNat ++
      " bytes requested, " ++ Hex.marked remaining.toNat ++ " left"⟩
  | switchRefused active activeState otherState =>
    ⟨.warn, switch,
      s!"switch refused: {active} is {activeState}, {active.other} is {otherState}"⟩
  | switching source target => ⟨.info, switch, s!"switching {source} -> {target}"⟩
  | switchAborted target error =>
    ⟨.error, switch, s!"switch aborted, {target} not touched: {error}"⟩
  | switchFailed error => ⟨.error, switch, s!"switch failed, no cell running: {error}"⟩
  | switchCompleted count active => ⟨.info, switch, s!"switch #{count} complete, {active} active"⟩
  | starting version => ⟨.info, hypervisor, s!"Concordia v{version} starting"⟩
  | memoryLayout table => ⟨.info, hypervisor, "memory layout:\n" ++ table.text⟩
  | bootCompleted active => ⟨.info, hypervisor, s!"boot complete, {active} active"⟩
  | reassignmentRefused address owner =>
    ⟨.warn, hypervisor, s!"refusing to move {address} away from running cell {owner}"⟩

end Notice
end CellVisor
