import CellVisor.Cpu.CoreRange
import CellVisor.Mailbox.Slot
import CellVisor.Table

/-!
# CellVisor.Mailbox.Mailbox

A station for every core of the machine. A core that has none is never signalled, and never answers.
-/

namespace CellVisor

structure Mailbox where
  stations : Table UInt32 Mailbox.Station := {}
  deriving Repr, DecidableEq

namespace Mailbox

/-- The station of a core; none outside the range of cores. -/
def station? (mailbox : Mailbox) (core : UInt32) : Option Station :=
  if core.toNat < maxCores then some (mailbox.stations.getD core {}) else none

def modify (mailbox : Mailbox) (core : UInt32) (change : Station → Station) : Mailbox :=
  match mailbox.station? core with
  | some station => { mailbox with stations := mailbox.stations.insert core (change station) }
  | none => mailbox

def modifySlot (mailbox : Mailbox) (core : UInt32) (change : Slot → Slot) : Mailbox :=
  mailbox.modify core fun station => { station with slot := change station.slot }

/-- Posts a signal to a core; tells whether the core has a slot. -/
def post (mailbox : Mailbox) (core : UInt32) (signal : Signal) : Bool × Mailbox :=
  ((mailbox.station? core).isSome, mailbox.modifySlot core fun slot => slot.post signal)

def acknowledged (mailbox : Mailbox) (core : UInt32) (signal : Signal) : Bool :=
  (mailbox.station? core).any fun station => station.slot.acknowledged signal

def freezeRequested (mailbox : Mailbox) (core : UInt32) : Bool :=
  (mailbox.station? core).any fun station => station.slot.freezeRequested

/-- The context that a parked core handed over. -/
def context (mailbox : Mailbox) (core : UInt32) : Context :=
  ((mailbox.station? core).map fun station => station.slot.context).getD {}

/-- Replaces the context that a parked core reloads when it is thawed. -/
def setContext (mailbox : Mailbox) (core : UInt32) (context : Context) : Mailbox :=
  mailbox.modifySlot core fun slot => slot.setContext context

def isParked (mailbox : Mailbox) (core : UInt32) : Bool :=
  (mailbox.station? core).any Station.isParked

/-- The registers of a core: what it was interrupted with, or has reloaded. -/
def frame (mailbox : Mailbox) (core : UInt32) : Context :=
  ((mailbox.station? core).map fun station => station.target.frame).getD {}

/-- Kicks a core that runs with `frame`; it parks if a freeze is requested. -/
def park (mailbox : Mailbox) (core : UInt32) (frame : Context) : Mailbox :=
  mailbox.modify core (Station.park frame)

/-- Lets a core look at its request, if it is parked; it goes on if a thaw is requested. -/
def wake (mailbox : Mailbox) (core : UInt32) : Mailbox :=
  if mailbox.isParked core then mailbox.modify core Station.release else mailbox

/-- The registers that a core has reloaded, if it was parked and has gone on since. -/
def reloaded? (before after : Mailbox) (core : UInt32) : Option Context :=
  if before.isParked core ∧ ¬ after.isParked core then some (after.frame core) else none

/-- The mailbox in which every core has thawed and nothing is requested. -/
def thawed : Mailbox where
  stations :=
    ⟨(List.range maxCores).map fun core => (UInt32.ofNat core, { slot := { ack := some .thaw } })⟩

end Mailbox
end CellVisor
