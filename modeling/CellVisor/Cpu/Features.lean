import CellVisor.Machine

/-!
# CellVisor.Cpu.Features

Switching on the execution features that guests expect. A feature that the processor lacks, or whose
bits do not read back as written, is reported and left out; nothing here fails.
-/

namespace CellVisor

namespace Leaves

def features (leaves : Leaves) : FeatureSet where
  sse := (leaves 1 0).edx &&& 0x02000000 ≠ 0
  avx := (leaves 1 0).ecx &&& 0x10000000 ≠ 0 && (leaves 1 0).ecx &&& 0x04000000 ≠ 0
  nx := 0x80000001 ≤ (leaves 0x80000000 0).eax && (leaves 0x80000001 0).edx &&& 0x00100000 ≠ 0

end Leaves

namespace FeatureSet

variable {M : Type} [Board M]

/-- CR4: the system saves SSE state. -/
def osfxsr : UInt64 := 0x200

/-- CR4: the system saves state through XSAVE, and XCR0 may be written. -/
def osxsave : UInt64 := 0x40000

/-- XCR0: x87, SSE and AVX state. -/
def vectorState : UInt64 := 0x7

/-- EFER: no-execute pages. -/
def nxe : UInt64 := 0x800

/-- Sets `bits` in a register, and tells whether all of them read back. -/
def setBits (register : ControlRegister) (bits : UInt64) (machine : M) : Bool × M :=
  let machine := Board.writeControl register (Board.readControl machine register ||| bits) machine
  (Board.readControl machine register &&& bits == bits, machine)

def latch (register : ControlRegister) (bits : UInt64) : Action M Bool := fun machine =>
  let (latched, machine) := setBits register bits machine
  ⟨.ok latched, machine, []⟩

/-- Runs `switch` for a feature that is supported. Where it is not, or where the switch does not
take effect, the feature is reported as unavailable. -/
def enableOne (supported : Bool) (capability : Capability) (refused : Notice)
    (switch : Action M Bool) : Action M Bool := do
  if supported then
    let enabled ← switch
    if !enabled then
      Action.note refused
      Action.note (.featureUnavailable capability)
    pure enabled
  else
    Action.note (.featureUnavailable capability)
    pure false

/-- XCR0 can be written only once CR4 allows it. -/
def latchAvx : Action M Bool := do
  if ← latch .cr4 osxsave then latch .xcr0 vectorState else pure false

/-- Switches on every feature that the processor has, and gives those that took effect. -/
def enable : Action M FeatureSet := do
  let supported := (Board.leaves (← Action.get)).features
  let sse ← enableOne supported.sse .sse .sseNotLatched (latch .cr4 osfxsr)
  let avx ← enableOne supported.avx .avx .xsaveNotLatched latchAvx
  let nx ← enableOne supported.nx .noExecute .nxNotLatched (latch .efer nxe)
  let enabled : FeatureSet := { sse, avx, nx }
  Action.note (.featuresEnabled enabled)
  pure enabled

end FeatureSet
end CellVisor
