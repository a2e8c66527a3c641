import CellVisor.Action
import CellVisor.Cpu.Context
import CellVisor.Cpu.Control
import CellVisor.Cpu.Leaf
import CellVisor.Pci.ConfigSpace

/-!
# CellVisor.Machine

What the control plane needs from the hardware, as narrow classes. Each component asks for the
classes that it uses, so the same code runs on every machine that provides them.
-/

namespace CellVisor

class Mmio (M : Type) where
  mmioRead : M → UInt64 → UInt32
  mmioWrite : UInt64 → UInt32 → M → M

/-- Other cores, bulk copies and time. -/
class Machine (M : Type) where
  /-- Posts a signal to a core, and does not wait for an answer. A core that cannot be signalled is
  refused. -/
  signal : UInt32 → Signal → M → Except Error M
  /-- Whether a core has acknowledged a signal. Asking may let the core get on. -/
  acknowledged : UInt32 → Signal → M → Bool × M
  /-- The context that a frozen core handed over. -/
  context : M → UInt32 → Context
  /-- Replaces the context that a frozen core reloads when it is thawed. -/
  setContext : UInt32 → Context → M → M
  /-- Copies bytes of physical memory, given target, source and size. -/
  copy : UInt64 → UInt64 → UInt64 → M → Except Error Unit × M
  /-- Reads a clock that never goes back, in microseconds; none when it has run out. -/
  now : M → Option (UInt64 × M)

/-- A whole machine, with what is looked at and set up while booting. -/
class Board (M : Type) extends Machine M, Mmio M where
  leaves : M → Leaves
  configSpace : M → Pci.ConfigSpace
  readControl : M → ControlRegister → UInt64
  writeControl : ControlRegister → UInt64 → M → M

end CellVisor
