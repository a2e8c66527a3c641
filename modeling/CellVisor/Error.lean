import CellVisor.Text.Hex

/-!
# CellVisor.Error

Why an operation of the control plane is refused or fails. Each cause is a constructor; the text
shown for it is `Error.message`, in one place.
-/

namespace CellVisor

inductive Capability
  | iommu
  | sse
  | avx
  | noExecute
  | extendedTopology
  deriving Repr, DecidableEq

namespace Capability

def name : Capability → String
  | iommu => "IOMMU"
  | sse => "SSE"
  | avx => "AVX"
  | noExecute => "NX"
  | extendedTopology => "extended topology"

end Capability

/-- What is wrong with a configuration, or with a request that names something unknown. -/
inductive Misconfiguration
  | cellIdOutOfRange
  | coreOutsideMailbox
  | rangeExceedsBarrier
  | hypervisorRegionEmpty
  | cellMemoryEmpty
  | storeSmallerThanCell
  | cellMemoryOverflows
  | guestTotalNotCovered
  | regionEndOverflows
  | regionsOverlap
  | blockSizeNotPowerOfTwo
  | freezeTimeoutZero
  | noLinuxCores
  | coreSplitOutOfRange
  | cellOwnsNoCores
  | targetOwnsNoCores
  | deviceInNoGroup
  | zeroSizedAllocation
  | alignmentNotPowerOfTwo
  | other (reason : String)
  deriving Repr, DecidableEq

namespace Misconfiguration

def reason : Misconfiguration → String
  | cellIdOutOfRange => "cell id out of range"
  | coreOutsideMailbox => "core outside mailbox range"
  | rangeExceedsBarrier => "core range exceeds barrier width"
  | hypervisorRegionEmpty => "hypervisor region is empty"
  | cellMemoryEmpty => "cell memory region is empty"
  | storeSmallerThanCell => "hibernation store smaller than cell memory"
  | cellMemoryOverflows => "cell memory size overflows"
  | guestTotalNotCovered => "cell memory does not cover guest total"
  | regionEndOverflows => "region end overflows"
  | regionsOverlap => "memory regions overlap"
  | blockSizeNotPowerOfTwo => "hibernation block size is not a power of two"
  | freezeTimeoutZero => "freeze timeout is zero"
  | noLinuxCores => "linux cell needs at least one core"
  | coreSplitOutOfRange => "core split out of range"
  | cellOwnsNoCores => "cell owns no cores"
  | targetOwnsNoCores => "target cell owns no cores"
  | deviceInNoGroup => "device is not in any IOMMU group"
  | zeroSizedAllocation => "zero-sized allocation"
  | alignmentNotPowerOfTwo => "alignment is not a power of two"
  | other text => text

end Misconfiguration

inductive Error
  | config (cause : Misconfiguration)
  | unavailable (capability : Capability)
  /-- The first core that did not answer a freeze or thaw in time. -/
  | syncTimeout (core : UInt32)
  /-- The address of a register that did not read back as written. -/
  | verificationFailure (register : UInt64)
  | resourceExhausted
  | invalidState
  | copyFailed
  deriving Repr, DecidableEq

namespace Error

def message : Error → String
  | config cause => "configuration error: " ++ cause.reason
  | unavailable capability => capability.name ++ " not available"
  | syncTimeout core => s!"core {core} did not acknowledge in time"
  | verificationFailure register =>
    "register " ++ Hex.marked register.toNat ++ " did not read back as written"
  | resourceExhausted => "hypervisor memory exhausted"
  | invalidState => "operation not valid in current cell state"
  | copyFailed => "bulk memory copy failed"

instance : ToString Error := ⟨message⟩

end Error
end CellVisor
