import CellVisor.Switch.Snapshot

/-!
# CellVisor.Switch.Coordinator

Handing the machine from the active cell to the other one. The active cell is hibernated first, and
only when that has succeeded is the other resumed; so the two never run together. A switch either
completes or leaves the cell that failed in the state `error`.
-/

namespace CellVisor

/-- Which cell is active, what switches there were, and what has been published. -/
structure Coordinator where
  active : CellId
  switches : UInt64
  lastSwitch : Option UInt64
  isolation : Isolation
  iommu : IommuStatus
  board : StatusBoard
  deriving Repr, DecidableEq

namespace Snapshot

def take (active : CellId) (switches : UInt64) (lastSwitch : Option UInt64) (isolation : Isolation)
    (iommu : IommuStatus) (cells : Cells) : Snapshot where
  active
  cells := .of fun id => .ofCell (cells.get id)
  switches
  lastSwitch
  isolation
  iommu

end Snapshot

namespace Coordinator

/-- A coordinator for cells that have been started; it publishes their status at once. -/
def ofCells (cells : Cells) (isolation : Isolation) (iommu : IommuStatus) : Coordinator :=
  let active := cells.running?.getD .linux
  { active
    switches := 0
    lastSwitch := none
    isolation
    iommu
    board := { latest := .take active 0 none isolation iommu cells } }

def snapshot (coordinator : Coordinator) (cells : Cells) : Snapshot :=
  .take coordinator.active coordinator.switches coordinator.lastSwitch coordinator.isolation
    coordinator.iommu cells

def publish (coordinator : Coordinator) (cells : Cells) : Coordinator :=
  { coordinator with board := coordinator.board.publish (coordinator.snapshot cells) }

end Coordinator

/-- A host that its two cells take in turn, with the coordinator of the turns. -/
structure SharedHost (M : Type) where
  host : Host M
  coordinator : Coordinator
  deriving Repr, DecidableEq

namespace SharedHost

variable {M : Type} {α : Type}

def onHost (action : Action (Host M) α) : Action (SharedHost M) α :=
  action.zoom host fun host shared => { shared with host }

def publish : Action (SharedHost M) Unit :=
  Action.update fun shared =>
    { shared with coordinator := shared.coordinator.publish shared.host.cells }

/-- Makes `next` the active cell, at the time `now`, as one more completed switch. -/
def activate (next : CellId) (now : UInt64) (switches : UInt64) : Action (SharedHost M) Unit :=
  Action.update fun shared =>
    { shared with
      coordinator :=
        { shared.coordinator with active := next, switches, lastSwitch := some now } }

variable [Machine M]

/-- Hands the machine to the other cell, and gives that cell. It is refused, without any effect,
unless the active cell runs and the other one is hibernated and owns cores. When the hibernation
fails nothing is done to the other cell; when the resumption fails the active cell stays
hibernated. -/
def switch : Action (SharedHost M) CellId := do
  let shared ← Action.get
  let current := shared.coordinator.active
  let next := current.other
  let cells := shared.host.cells
  if cells.state current ≠ .running ∨ cells.state next ≠ .hibernated then
    Action.note (.switchRefused current (cells.state current) (cells.state next))
    Action.fail .invalidState
  if (cells.get next).cores.isEmpty then
    Action.fail (.config .targetOwnsNoCores)
  Action.note (.switching current next)
  let hibernated ← (onHost (Host.hibernate current)).attempt
  publish
  match hibernated with
  | .error error =>
    Action.note (.switchAborted next error)
    Action.fail error
  | .ok () =>
    match ← (onHost (Host.resume next)).attempt with
    | .error error =>
      publish
      Action.note (.switchFailed error)
      Action.fail error
    | .ok () =>
      let switches ← Action.word (Word.add? shared.coordinator.switches 1)
      let now ← onHost (Host.onMachine (Action.ofReading Machine.now))
      activate next now switches
      publish
      Action.note (.switchCompleted switches next)
      pure next

end SharedHost
end CellVisor
