/-!
# CellVisor.Iommu.Status

How the isolation of devices stands, and the words for it.
-/

namespace CellVisor

inductive ControllerKind
  | amdVi
  deriving Repr, DecidableEq

namespace ControllerKind

def name : ControllerKind → String
  | amdVi => "AmdVi"

end ControllerKind

/-- Whether hardware confines devices to their cell. -/
inductive Isolation
  | enforced
  | degraded
  deriving Repr, DecidableEq

namespace Isolation

def name : Isolation → String
  | enforced => "Enforced"
  | degraded => "Degraded"

end Isolation

inductive IommuStatus
  | notDetected
  /-- There is one, and it does not (yet) enforce remapping. -/
  | detected
  | enforcing
  /-- The enforcement bits did not read back. -/
  | verificationFailed
  deriving Repr, DecidableEq

namespace IommuStatus

def text : IommuStatus → String
  | notDetected => "Not detected"
  | detected => "Detected, not enforcing"
  | enforcing => "Enforcing"
  | verificationFailed => "Verification failed"

instance : ToString IommuStatus := ⟨text⟩

end IommuStatus
end CellVisor
