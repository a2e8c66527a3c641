import CellVisor.Action
import CellVisor.Cpu.Leaf

/-!
# CellVisor.Cpu.Topology

How many cores a machine has, and how they are split between the cells.
-/

namespace CellVisor

structure Topology where
  total : UInt32
  source : CountSource
  ranges : PerCell CoreRange
  deriving Repr, DecidableEq

namespace Leaves

/-- The type of a topology level: 0 ends the list, 2 is the level of cores. -/
def levelType (leaf : Leaf) : UInt32 := (leaf.ecx >>> 8) &&& 0xFF

/-- The count at the first level of cores, among the levels listed. -/
def coreLevelCount (leaves : Leaves) : List UInt32 → Option UInt32
  | [] => none
  | level :: rest =>
    let leaf := leaves 0x0B level
    if levelType leaf = 0 then none
    else if levelType leaf = 2 then
      let count := leaf.ebx &&& 0xFFFF
      if count = 0 then none else some count
    else coreLevelCount leaves rest

/-- The count of cores in the extended topology leaf, where the processor has that leaf. -/
def extendedCount (leaves : Leaves) : Option UInt32 :=
  if (leaves 0 0).eax < 0x0B then none
  else leaves.coreLevelCount ((List.range 8).map UInt32.ofNat)

/-- The count of logical processors in leaf 1. -/
def legacyCount (leaves : Leaves) : UInt32 := ((leaves 1 0).ebx >>> 16) &&& 0xFF

end Leaves

namespace Topology

variable {σ : Type}

/-- The number of cores as it is reported, before any limit: by the extended topology leaf, else by
leaf 1, else one. -/
def reported (leaves : Leaves) : UInt32 × CountSource :=
  match leaves.extendedCount with
  | some count => (count, .extendedTopology)
  | none =>
    if leaves.legacyCount = 0 then (1, .fallback) else (leaves.legacyCount, .legacy)

def detect (leaves : Leaves) : Action σ (UInt32 × CountSource) := do
  let (count, source) := reported leaves
  if source ≠ .extendedTopology then
    Action.note .topologyUnavailable
  if maxCores < count.toNat then
    Action.note (.coresClamped count)
    pure (UInt32.ofNat maxCores, source)
  else
    pure (count, source)

/-- Splits `total` cores: the linux cell takes `linuxCores` of them from core 0 on, the windows cell
the rest. Without a number, or with one that cannot be met, linux takes half, rounded up. -/
def partition (total : UInt32) (source : CountSource) (linuxCores : Option UInt32) :
    Action σ Topology := do
  let even := (← Action.word (Word.succ? total)) / 2
  let linux ← match linuxCores with
    | none => pure even
    | some count =>
      if 0 < count ∧ count ≤ total then
        pure count
      else do
        Action.note (.splitRefused count total)
        pure even
  let windows : CoreRange := ⟨linux, total⟩
  if windows.isEmpty then
    Action.note .windowsOwnsNoCores
  pure { total, source, ranges := { linux := ⟨0, linux⟩, windows } }

def probe (leaves : Leaves) (linuxCores : Option UInt32) : Action σ Topology := do
  let (total, source) ← detect leaves
  let topology ← partition total source linuxCores
  Action.note (.coresSplit total source topology.ranges.linux topology.ranges.windows)
  pure topology

/-- The cell that owns `core`; none past the detected cores. -/
def ownerOf (topology : Topology) (core : UInt32) : Option CellId :=
  CellId.all.find? fun id => (topology.ranges.get id).contains core

def isLinuxCore (topology : Topology) (core : UInt32) : Bool :=
  topology.ownerOf core = some .linux

end Topology
end CellVisor
