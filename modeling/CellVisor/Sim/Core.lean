import CellVisor.Cpu.Context
import CellVisor.Signal

/-!
# CellVisor.Sim.Core

A simulated core. It answers requests when it is asked: a running core parks on a freeze, and only a
parked core sees a thaw. It can be made to answer late, or not at all.
-/

namespace CellVisor
namespace Sim

/-- A signal that was posted to a core, and whether the core has acknowledged it. -/
structure Request where
  signal : Signal
  acknowledged : Bool := false
  deriving Repr, DecidableEq

structure Core where
  responsive : Bool := true
  /-- Whether the core halts in the hypervisor. -/
  parked : Bool := false
  request : Option Request := none
  /-- How many questions the core leaves unanswered after each signal. -/
  delay : Nat := 0
  /-- How many of these are still to come. -/
  holdoff : Nat := 0
  /-- The registers that the core runs with, or will once it is thawed. -/
  context : Context := {}
  deriving Repr, DecidableEq, Inhabited

namespace Core

/-- Takes note of a signal. It replaces an earlier one. -/
def post (core : Core) (signal : Signal) : Core :=
  { core with request := some { signal }, holdoff := core.delay }

/-- Whether a signal is for this core to act on: a freeze while it runs, a thaw while it is
parked. -/
def heeds (core : Core) : Signal → Bool
  | .freeze => !core.parked
  | .thaw => core.parked

/-- The answer of a core that is asked for a signal. -/
inductive Answer
  | pending
  | before
  | now
  deriving Repr, DecidableEq

/-- What the core answers when it is asked for `signal`. -/
def answer (core : Core) (signal : Signal) : Answer :=
  if 0 < core.holdoff ∨ !core.responsive then .pending
  else match core.request with
    | none => .pending
    | some request =>
      if request.signal ≠ signal then .pending
      else if request.acknowledged then .before
      else if core.heeds signal then .now
      else .pending

/-- The core after it was asked: it comes closer to answering, or has parked or gone on. -/
def asked (core : Core) (signal : Signal) : Core :=
  if 0 < core.holdoff then { core with holdoff := core.holdoff - 1 }
  else match core.answer signal with
    | .now =>
      { core with
        parked := signal = .freeze
        request := some { signal, acknowledged := true } }
    | _ => core

end Core
end Sim
end CellVisor
