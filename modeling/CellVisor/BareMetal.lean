import CellVisor.Machine
import CellVisor.Mailbox.Mailbox
import CellVisor.Memory.Physical

/-!
# CellVisor.BareMetal

The machine as it is driven without a simulation: cores are signalled through their mailbox and
kicked by an interrupt, registers are words of memory, copies are bounded by the address space, and
time is counted in ticks.
-/

namespace CellVisor

structure BareMetal where
  mailbox : Mailbox := {}
  memory : Physical := {}
  /-- The ticks of the counter so far. -/
  ticks : UInt64 := 0
  ticksPerMicrosecond : UInt64
  /-- The registers of the cores that take an interrupt. The other cores do not notice it. -/
  frames : Table UInt32 Context := {}

namespace BareMetal

/-- The two words of the local interrupt controller through which an interrupt is sent. -/
def commandLow : UInt64 := 0xFEE00300

def commandHigh : UInt64 := 0xFEE00310

/-- The delivery mode of an interrupt that cannot be masked. -/
def deliverNmi : UInt32 := 0x400

/-- The word at `address`. There is no register at address zero: it reads as all bits set. -/
def registerRead (machine : BareMetal) (address : UInt64) : UInt32 :=
  if address = 0 then 0xFFFFFFFF else machine.memory.readWord address

def registerWrite (address : UInt64) (value : UInt32) (machine : BareMetal) : BareMetal :=
  if address = 0 then machine
  else { machine with memory := machine.memory.writeWord address value }

/-- Interrupts a core: first the destination is written, then the command. The word written last has
the bit for a pending delivery clear, so there is nothing to wait for. -/
def kick (core : UInt32) (machine : BareMetal) : BareMetal :=
  let machine := machine.registerWrite commandHigh (core <<< 24)
  let machine := machine.registerWrite commandLow deliverNmi
  match machine.frames.get? core with
  | some frame =>
    if machine.mailbox.isParked core then machine
    else { machine with mailbox := machine.mailbox.park core frame }
  | none => machine

/-- Posts a signal. A core that is to freeze is kicked; one that is to thaw looks for the request by
itself. -/
def signalCore (core : UInt32) (signal : Signal) (machine : BareMetal) : Except Error BareMetal :=
  let (posted, mailbox) := machine.mailbox.post core signal
  if posted then
    match signal with
    | .freeze => .ok (kick core { machine with mailbox })
    | .thaw => .ok { machine with mailbox := mailbox.wake core }
  else .error (.config .coreOutsideMailbox)

def acknowledged (core : UInt32) (signal : Signal) (machine : BareMetal) : Bool × BareMetal :=
  (machine.mailbox.acknowledged core signal, machine)

/-- What a copy must satisfy: both ranges end inside the address space, and neither starts at
zero. -/
def acceptsCopy (target source size : UInt64) : Bool :=
  (Word.add? target size).isSome && (Word.add? source size).isSome && target != 0 && source != 0

def copy (target source size : UInt64) (machine : BareMetal) : Except Error Unit × BareMetal :=
  if acceptsCopy target source size then
    (.ok (), { machine with memory := machine.memory.copy target source size })
  else (.error .copyFailed, machine)

/-- Reads the counter, which moves on by a microsecond from one reading to the next. -/
def now (machine : BareMetal) : Option (UInt64 × BareMetal) :=
  let rate := max machine.ticksPerMicrosecond 1
  let ticks := machine.ticks + rate
  some (ticks / rate, { machine with ticks })

instance : Mmio BareMetal where
  mmioRead := registerRead
  mmioWrite := registerWrite

instance : Machine BareMetal where
  signal := signalCore
  acknowledged := acknowledged
  context machine core := machine.mailbox.context core
  setContext core context machine :=
    { machine with mailbox := machine.mailbox.setContext core context }
  copy := copy
  now := now

end BareMetal
end CellVisor
