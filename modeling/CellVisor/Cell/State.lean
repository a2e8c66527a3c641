/-!
# CellVisor.Cell.State

The lifecycle of a cell:

    initializing --> running <--> hibernated

and from each of these to `error`, which is never left.
-/

namespace CellVisor

inductive CellState
  | initializing
  | running
  | hibernated
  /-- The end: the cell needs help from outside. -/
  | error
  deriving Repr, DecidableEq

namespace CellState

/-- Whether the lifecycle allows the step from one state to another. -/
def canEnter : CellState → CellState → Bool
  | initializing, running => true
  | initializing, hibernated => true
  | running, hibernated => true
  | hibernated, running => true
  | initializing, error => true
  | running, error => true
  | hibernated, error => true
  | _, _ => false

def name : CellState → String
  | initializing => "initializing"
  | running => "running"
  | hibernated => "hibernated"
  | error => "error"

instance : ToString CellState := ⟨name⟩

end CellState
end CellVisor
