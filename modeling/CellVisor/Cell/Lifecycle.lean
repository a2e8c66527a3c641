import CellVisor.Barrier
import CellVisor.Cell.Cell
import CellVisor.Cell.Image
import CellVisor.Cpu.Topology

/-!
# CellVisor.Cell.Lifecycle

The two cells of a machine and the steps of their lifecycle. Hibernation freezes the cores of a
cell, takes down their contexts and copies the memory of the cell into its store; a resumption goes
the other way. What fails on the way leaves the cell in the state `error`: nothing is tried again,
since half an image is of no use.
-/

namespace CellVisor

/-- Both cells, and what their steps depend on. -/
structure Cells where
  cells : PerCell Cell
  barrier : Barrier
  blockSize : UInt64
  deriving Repr, DecidableEq

namespace Cells

/-- The cells of a partition, before they are started. -/
def fresh (config : Config) (topology : Topology) : Cells where
  cells := .of fun id => Cell.fresh id (topology.ranges.get id) (config.cells.get id)
  barrier := ⟨config.freezeTimeout⟩
  blockSize := config.blockSize

def get (cells : Cells) (id : CellId) : Cell := cells.cells.get id

def set (cells : Cells) (id : CellId) (cell : Cell) : Cells :=
  { cells with cells := cells.cells.set id cell }

def state (cells : Cells) (id : CellId) : CellState := (cells.get id).state

def running? (cells : Cells) : Option CellId := CellId.all.find? fun id => (cells.get id).isRunning

theorem get_set (cells : Cells) (id other : CellId) (cell : Cell) :
    (cells.set id cell).get other = if other = id then cell else cells.get other :=
  PerCell.get_set _ _ _ _

end Cells

structure Host (M : Type) where
  machine : M
  cells : Cells
  deriving Repr, DecidableEq

namespace Host

variable {M : Type} {α : Type}

def setMachine (machine : M) (host : Host M) : Host M := { host with machine }

def setCell (id : CellId) (cell : Cell) (host : Host M) : Host M :=
  { host with cells := host.cells.set id cell }

def cell (id : CellId) : Action (Host M) Cell := do
  pure ((← Action.get).cells.get id)

def onMachine (action : Action M α) : Action (Host M) α := action.zoom machine setMachine

/-- Moves a cell to another state, where the lifecycle allows it. -/
def enter (id : CellId) (target : CellState) : Action (Host M) Unit := do
  let cell ← cell id
  if cell.state.canEnter target then
    Action.note (.cellEntered id cell.state target)
    Action.update (setCell id { cell with state := target })
  else
    Action.fail .invalidState

/-- Moves a cell to the state `error` from wherever it is. -/
def markFailed (id : CellId) : Action (Host M) Unit := do
  let cell ← cell id
  if cell.state ≠ .error then
    Action.note (.cellFailed id cell.state)
    Action.update (setCell id { cell with state := .error })

variable [Machine M]

/-- Signals the cores of a cell and waits for their answers. -/
def rendezvous (id : CellId) (signal : Signal) : Action (Host M) Unit := do
  let host ← Action.get
  onMachine (host.cells.barrier.rendezvous (host.cells.get id).cores signal)

/-- Starts the cells: linux runs, and the cores of windows are parked so that it can be resumed. If
they do not all park, windows is out of order and linux runs alone. -/
def boot : Action (Host M) Unit := do
  let host ← Action.get
  if host.cells.state .linux ≠ .initializing ∨ host.cells.state .windows ≠ .initializing then
    Action.fail .invalidState
  enter .linux .running
  match ← (rendezvous .windows .freeze).attempt with
  | .ok () =>
    enter .windows .hibernated
    Action.note (.cellsBooted (host.cells.get .windows).cores)
  | .error error =>
    Action.note (.parkingFailed .windows error)
    markFailed .windows

/-- Freezes the cores of a cell, takes down their contexts and copies its memory into its store.
Gives the number of blocks. -/
def save (id : CellId) : Action (Host M) UInt32 := do
  rendezvous id .freeze
  let host ← Action.get
  let cell := host.cells.get id
  let saved := cell.cores.toList.map fun core => ⟨core, Machine.context host.machine core⟩
  if maxCores < saved.length then
    Action.fail .resourceExhausted
  Action.update (setCell id { cell with saved })
  onMachine (Image.copy cell.store.base cell.memory.base cell.memory.size host.cells.blockSize)

/-- Freezes a running cell and saves it. -/
def hibernate (id : CellId) : Action (Host M) Unit := do
  let host ← Action.get
  if host.cells.state id ≠ .running then
    Action.fail .invalidState
  match ← (save id).attempt with
  | .ok blocks =>
    let cell ← cell id
    Action.update (setCell id { cell with blocks })
    enter id .hibernated
    Action.note (.cellHibernated id blocks)
  | .error error =>
    Action.note (.hibernationFailed id error)
    markFailed id
    Action.fail error

/-- Sets the contexts that frozen cores will reload. -/
def setContexts : List SavedContext → M → M
  | [], machine => machine
  | saved :: rest, machine => setContexts rest (Machine.setContext saved.core saved.context machine)

/-- Brings back the memory and the contexts of a cell, or the contexts of a start from its entry
where it was never saved, and thaws its cores. -/
def restore (id : CellId) : Action (Host M) Unit := do
  let host ← Action.get
  let cell := host.cells.get id
  if cell.hasImage then
    let _ ← onMachine
      (Image.copy cell.memory.base cell.store.base cell.memory.size host.cells.blockSize)
    onMachine (Action.update (setContexts cell.saved))
  else
    Action.note (.coldStart id cell.entry)
    onMachine (Action.update
      (setContexts (cell.cores.toList.map fun core => ⟨core, Context.startingAt cell.entry⟩)))
  rendezvous id .thaw

/-- Lets a hibernated cell run, unless the other cell does. -/
def resume (id : CellId) : Action (Host M) Unit := do
  let host ← Action.get
  if host.cells.state id ≠ .hibernated then
    Action.fail .invalidState
  if host.cells.state id.other = .running then
    Action.note (.resumeRefused id)
    Action.fail .invalidState
  if (host.cells.get id).cores.isEmpty then
    Action.fail (.config .cellOwnsNoCores)
  match ← (restore id).attempt with
  | .ok () =>
    enter id .running
    Action.note (.cellResumed id)
  | .error error =>
    Action.note (.resumeFailed id error)
    markFailed id
    Action.fail error

end Host
end CellVisor
