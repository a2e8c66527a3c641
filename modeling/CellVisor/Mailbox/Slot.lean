import CellVisor.Cpu.Context
import CellVisor.Signal

/-!
# CellVisor.Mailbox.Slot

The slot through which the control core and one other core talk, and what the other core does with
it. Each access to the slot is a step of its own, so that the two sides can be interleaved in any
order.

The control core posts a signal by clearing the acknowledgment and then publishing the request. The
other core, when it is kicked, goes through its park routine:

    running --request is freeze--> entered --context stored--> stored --freeze acknowledged-->
    waiting --request is thaw--> released --context loaded--> reloaded --request cleared-->
    cleared --thaw acknowledged--> running
-/

namespace CellVisor
namespace Mailbox

structure Slot where
  request : Option Signal := none
  /-- What the other core has acknowledged last. -/
  ack : Option Signal := none
  context : Context := {}
  deriving Repr, DecidableEq, Inhabited

namespace Slot

/-! ## The control core -/

def clearAck (slot : Slot) : Slot := { slot with ack := none }

def publish (slot : Slot) (signal : Signal) : Slot := { slot with request := some signal }

/-- Both steps of posting a signal. -/
def post (slot : Slot) (signal : Signal) : Slot := slot.clearAck.publish signal

def acknowledged (slot : Slot) (signal : Signal) : Bool := slot.ack = some signal

def freezeRequested (slot : Slot) : Bool := slot.request = some .freeze

def setContext (slot : Slot) (context : Context) : Slot := { slot with context }

end Slot

/-! ## The other core -/

/-- How far a core is in its park routine. -/
inductive Stage
  | running
  /-- It has seen the request to freeze. -/
  | entered
  | stored
  /-- It has acknowledged the freeze, and looks for a request to thaw. -/
  | waiting
  /-- It has seen the request to thaw. -/
  | released
  | reloaded
  | cleared
  deriving Repr, DecidableEq, Inhabited

/-- A core that serves a slot, with the registers it was interrupted with or has reloaded. -/
structure Target where
  stage : Stage := .running
  frame : Context := {}
  deriving Repr, DecidableEq, Inhabited

structure Station where
  slot : Slot := {}
  target : Target := {}
  deriving Repr, DecidableEq, Inhabited

namespace Station

def enterStage (station : Station) (stage : Stage) : Station :=
  { station with target := { station.target with stage } }

/-- The next access of a core in its park routine; for a running core, the first one. -/
def step (station : Station) : Station :=
  match station.target.stage with
  | .running => if station.slot.freezeRequested then station.enterStage .entered else station
  | .entered =>
    { station with slot := station.slot.setContext station.target.frame }.enterStage .stored
  | .stored =>
    { station with slot := { station.slot with ack := some .freeze } }.enterStage .waiting
  | .waiting =>
    if station.slot.request = some .thaw then station.enterStage .released else station
  | .released => { station with target := { stage := .reloaded, frame := station.slot.context } }
  | .reloaded => { station with slot := { station.slot with request := none } }.enterStage .cleared
  | .cleared =>
    { station with slot := { station.slot with ack := some .thaw } }.enterStage .running

/-- Several accesses of the core, with none of the control core between them. -/
def steps : Nat → Station → Station
  | 0, station => station
  | count + 1, station => steps count station.step

def isParked (station : Station) : Bool := station.target.stage = .waiting

/-- A running core that is kicked while it runs with `frame`: it parks if it is to freeze, and goes
on otherwise. -/
def park (frame : Context) (station : Station) : Station :=
  steps 3 { station with target := { station.target with frame } }

/-- A parked core that looks at its request: it goes on if it is to thaw, and waits otherwise. -/
def release (station : Station) : Station := steps 4 station

end Station
end Mailbox
end CellVisor
