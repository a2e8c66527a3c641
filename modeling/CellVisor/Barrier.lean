import CellVisor.Machine

/-!
# CellVisor.Barrier

The rendezvous with the cores of a range: a signal to each of them, then rounds of questions until
all have answered or time is up.
-/

namespace CellVisor

/-- A rendezvous takes at most `timeout` microseconds. -/
structure Barrier where
  timeout : UInt64
  deriving Repr, DecidableEq

namespace Barrier

variable {M : Type} [Machine M]

/-- Cores are tracked in one word, a bit for each. -/
def width : UInt32 := 64

/-- Signals the cores one after the other. The first refusal ends it, and the cores before it stay
signalled. -/
def signalAll (signal : Signal) : List UInt32 → Action M Unit
  | [] => pure ()
  | core :: rest => do
    Action.ofStep (Machine.signal core signal)
    signalAll signal rest

def bit (core : UInt32) : UInt64 := (1 : UInt64) <<< core.toUInt64

def mask (cores : List UInt32) : UInt64 := cores.foldr (fun core word => word ||| bit core) 0

/-- Asks the cores whose bits are set in `waiting`, the lowest first, and clears in `pending` the
bits of those that have answered. There are at most as many to ask as a word has bits. -/
def poll (signal : Signal) : Nat → UInt64 → UInt64 → M → UInt64 × M
  | 0, _, pending, machine => (pending, machine)
  | left + 1, waiting, pending, machine =>
    if waiting = 0 then (pending, machine)
    else
      let core := Word.trailingZeros waiting
      let (answered, machine) := Machine.acknowledged core signal machine
      poll signal left (waiting &&& (waiting - 1))
        (if answered then pending &&& ~~~bit core else pending) machine

/-- Asks in rounds until every core has answered or, after a round, the deadline has passed. Gives
the cores that did not answer. -/
def wait (signal : Signal) (timeout start : UInt64) : Nat → UInt64 → M → Reply M UInt64
  | 0, pending, machine => ⟨.ok pending, machine, []⟩
  | rounds + 1, pending, machine =>
    let (pending, machine) := poll signal width.toNat pending pending machine
    if pending = 0 then ⟨.ok 0, machine, []⟩
    else match Machine.now machine with
      | none => ⟨.fault .overflow, machine, []⟩
      | some (now, machine) =>
        if timeout ≤ Word.subClamped now start then ⟨.ok pending, machine, []⟩
        else wait signal timeout start rounds pending machine

/-- Signals every core of the range and waits for all of them to answer. When time is up, the error
names the lowest core that has not answered; those that have stay as the signal put them.

A clock that moves on by at least a microsecond at each reading reaches the deadline within
`timeout + 1` rounds. -/
def rendezvous (barrier : Barrier) (cores : CoreRange) (signal : Signal) : Action M Unit := do
  if width < cores.stop then
    Action.fail (.config .rangeExceedsBarrier)
  signalAll signal cores.toList
  let start ← Action.ofReading Machine.now
  let pending ← wait signal barrier.timeout start (barrier.timeout.toNat + 1) (mask cores.toList)
  if pending = 0 then
    Action.note (.acknowledged signal cores)
  else
    Action.note (.barrierTimedOut signal barrier.timeout pending)
    Action.fail (.syncTimeout (Word.trailingZeros pending))

end Barrier
end CellVisor
