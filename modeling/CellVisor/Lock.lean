/-!
# CellVisor.Lock

A lock around a value. Whoever takes it while it is free holds it until it is released, and only the
holder gets at the value.
-/

namespace CellVisor

structure Lock (α : Type) where
  value : α
  held : Bool := false
  deriving Repr, DecidableEq

namespace Lock

variable {α : Type}

/-- Takes the lock if it is free; tells whether it was. -/
def tryAcquire (lock : Lock α) : Bool × Lock α :=
  if lock.held then (false, lock) else (true, { lock with held := true })

/-- Gives the lock back; tells whether it was held. -/
def release (lock : Lock α) : Bool × Lock α := (lock.held, { lock with held := false })

def read? (lock : Lock α) : Option α := if lock.held then some lock.value else none

def write? (lock : Lock α) (value : α) : Option (Lock α) :=
  if lock.held then some { lock with value } else none

end Lock
end CellVisor
