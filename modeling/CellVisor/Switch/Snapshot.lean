import CellVisor.Cell.Lifecycle

/-!
# CellVisor.Switch.Snapshot

The status of the control plane as it is published: whole snapshots, of which readers see the
latest.
-/

namespace CellVisor

structure CellStatus where
  state : CellState
  cores : UInt32
  blocks : UInt32
  deriving Repr, DecidableEq

/-- A consistent view of the control plane. -/
structure Snapshot where
  active : CellId
  cells : PerCell CellStatus
  switches : UInt64
  /-- When the last switch was completed, in microseconds. -/
  lastSwitch : Option UInt64
  isolation : Isolation
  iommu : IommuStatus
  deriving Repr, DecidableEq

namespace CellStatus

def ofCell (cell : Cell) : CellStatus where
  state := cell.state
  cores := cell.cores.size
  blocks := cell.blocks

def line (id : CellId) (status : CellStatus) : String :=
  "  " ++ Column.left 8 id.name ++ " " ++ Column.left 12 status.state.name ++ " " ++
    Column.right 2 (toString status.cores) ++ " cores  " ++
    Column.right 6 (toString status.blocks) ++ " blocks\n"

end CellStatus

namespace Snapshot

def runningCells (snapshot : Snapshot) : Nat :=
  snapshot.cells.toList.countP fun status => status.state = .running

def text (snapshot : Snapshot) : String :=
  s!"active cell: {snapshot.active}\n" ++
    CellStatus.line .linux snapshot.cells.linux ++
    CellStatus.line .windows snapshot.cells.windows ++
    (match snapshot.lastSwitch with
      | some time => s!"switches: {snapshot.switches} (last at {time} us)\n"
      | none => s!"switches: {snapshot.switches}\n") ++
    s!"IOMMU: {snapshot.iommu} ({snapshot.isolation.name})"

end Snapshot

/-- The place where snapshots are published. It keeps the earlier ones too, so that what readers may
have seen can be looked at as a whole. -/
structure StatusBoard where
  latest : Snapshot
  /-- The snapshots before it, the last one first. -/
  earlier : List Snapshot := []
  deriving Repr, DecidableEq

namespace StatusBoard

def publish (board : StatusBoard) (snapshot : Snapshot) : StatusBoard :=
  ⟨snapshot, board.latest :: board.earlier⟩

/-- Every snapshot published so far, the first one first. -/
def published (board : StatusBoard) : List Snapshot := (board.latest :: board.earlier).reverse

@[simp] theorem latest_publish (board : StatusBoard) (snapshot : Snapshot) :
    (board.publish snapshot).latest = snapshot := rfl

theorem published_publish (board : StatusBoard) (snapshot : Snapshot) :
    (board.publish snapshot).published = board.published ++ [snapshot] := by
  simp [published, publish]

end StatusBoard
end CellVisor
