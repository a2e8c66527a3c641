/-!
# CellVisor.Signal

The two requests that the control core sends to another core.
-/

namespace CellVisor

inductive Signal
  /-- Halt, and hand over the register context. -/
  | freeze
  /-- Reload the register context and return to the guest. -/
  | thaw
  deriving Repr, DecidableEq

namespace Signal

def name : Signal → String
  | freeze => "freeze"
  | thaw => "thaw"

instance : ToString Signal := ⟨name⟩

end Signal
end CellVisor
