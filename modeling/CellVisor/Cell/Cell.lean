import CellVisor.Cell.State
import CellVisor.Config
import CellVisor.Cpu.Context
import CellVisor.Cpu.CoreRange

/-!
# CellVisor.Cell.Cell

A guest partition: what it owns and what was saved of it.
-/

namespace CellVisor

/-- The context of a core as it was when its cell was frozen. -/
structure SavedContext where
  core : UInt32
  context : Context
  deriving Repr, DecidableEq

structure Cell where
  id : CellId
  state : CellState
  cores : CoreRange
  memory : Extent
  store : Extent
  /-- The contexts of the cores, from the last hibernation. -/
  saved : List SavedContext
  /-- The size of the image in blocks; zero as long as there is none. -/
  blocks : UInt32
  deriving Repr, DecidableEq

namespace Cell

def fresh (id : CellId) (cores : CoreRange) (layout : CellLayout) : Cell where
  id
  state := .initializing
  cores
  memory := layout.memory
  store := layout.store
  saved := []
  blocks := 0

def isRunning (cell : Cell) : Bool := cell.state = .running

def entry (cell : Cell) : UInt64 := cell.memory.base

def hasImage (cell : Cell) : Bool := 0 < cell.blocks

def savedContext? (cell : Cell) (core : UInt32) : Option Context :=
  (cell.saved.find? fun saved => saved.core = core).map SavedContext.context

end Cell
end CellVisor
