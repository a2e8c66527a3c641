import CellVisor.Machine
import CellVisor.Memory.Physical
import CellVisor.Sim.Core
import CellVisor.Sim.Device
import CellVisor.Table

/-!
# CellVisor.Sim.Machine

A simulated machine: programmable processor leaves, PCI functions and registers, cores that follow
the park protocol or refuse to, sparse memory, copies that can be made to fail, and a clock that
moves on with each reading. It records what it does.
-/

namespace CellVisor

inductive SimEvent
  | signal (core : UInt32) (signal : Signal)
  | ack (core : UInt32) (signal : Signal)
  | copy (target source size : UInt64)
  deriving Repr, DecidableEq

structure EventTally where
  signals : Nat
  acks : Nat
  copies : Nat
  /-- The sum of the sizes copied, which is a word and wraps. -/
  bytes : UInt64
  deriving Repr, DecidableEq

namespace SimEvent

def copied? : SimEvent → Option UInt64
  | copy _ _ size => some size
  | _ => none

def tally (events : List SimEvent) : EventTally where
  signals := events.countP fun event => event matches signal ..
  acks := events.countP fun event => event matches ack ..
  copies := (events.filterMap copied?).length
  bytes := (events.filterMap copied?).foldl (· + ·) 0

end SimEvent

structure SimMachine where
  leaves : Table (UInt32 × UInt32) Leaf := {}
  devices : Table Pci.Address Sim.Device := {}
  registers : Table UInt64 UInt32 := {}
  /-- The bits of registers that keep their value when they are written. -/
  stuckBits : Table UInt64 UInt32 := {}
  control : ControlBank := {}
  cores : Table UInt32 Sim.Core := {}
  memory : Physical := {}
  /-- How many copies succeed before every later one fails. -/
  copiesLeft : Option Nat := none
  clock : UInt64 := 0
  /-- What happened, the latest first. -/
  history : List SimEvent := []
  deriving Repr, DecidableEq

namespace SimMachine

/-- Microseconds from one reading of the clock to the next. -/
def tick : UInt64 := 10

def events (machine : SimMachine) : List SimEvent := machine.history.reverse

def clearEvents (machine : SimMachine) : SimMachine := { machine with history := [] }

def record (machine : SimMachine) (event : SimEvent) : SimMachine :=
  { machine with history := event :: machine.history }

/-! ## Processor -/

def setLeaf (leaf subleaf : UInt32) (result : Leaf) (machine : SimMachine) : SimMachine :=
  { machine with leaves := machine.leaves.insert (leaf, subleaf) result }

/-- The programmed result; a leaf that is not programmed answers zeros. -/
def leaf (machine : SimMachine) (leaf subleaf : UInt32) : Leaf :=
  machine.leaves.getD (leaf, subleaf) {}

/-- A machine whose `cores` cores are reported through the extended topology leaf, with SSE, AVX and
no-execute pages, and nothing on the PCI bus. -/
def ofCores (cores : UInt32) : SimMachine :=
  let programmed : List ((UInt32 × UInt32) × Leaf) :=
    [((0, 0), { eax := 0x0B }),
      ((1, 0), { ebx := min cores 0xFF <<< 16, ecx := 0x14000000, edx := 0x02000000 }),
      ((0x0B, 0), { ebx := 2, ecx := 0x100 }),
      ((0x0B, 1), { ebx := cores, ecx := 0x201 }),
      ((0x0B, 2), { ecx := 2 }),
      ((0x80000000, 0), { eax := 0x80000001 }),
      ((0x80000001, 0), { edx := 0x00100000 })]
  { leaves := ⟨programmed⟩ }

/-- A machine without the extended topology leaf; leaf 1 reports the cores. -/
def ofLegacyCores (cores : UInt32) : SimMachine :=
  let machine := (ofCores cores).setLeaf 0 0 { eax := 1 }
  { machine with
    leaves := ((machine.leaves.erase (0x0B, 0)).erase (0x0B, 1)).erase (0x0B, 2) }

/-! ## Devices and registers -/

/-- Plugs in a function, in place of one with the same address. -/
def addDevice (address : Pci.Address) (device : Sim.Device) (machine : SimMachine) : SimMachine :=
  { machine with devices := machine.devices.insert address device }

def modifyDevice (address : Pci.Address) (change : Sim.Device → Sim.Device)
    (machine : SimMachine) : SimMachine :=
  match machine.devices.get? address with
  | some device => machine.addDevice address (change device)
  | none => machine

def setMultifunction (address : Pci.Address) : SimMachine → SimMachine :=
  modifyDevice address Sim.Device.setMultifunction

/-- Appends a capability to the function at `address`, if there is one. -/
def addCapability (address : Pci.Address) (id : UInt8) (payload : List UInt32) :
    Action SimMachine Unit := do
  match (← Action.get).devices.get? address with
  | none => pure ()
  | some device =>
    match device.addCapability? id payload with
    | some device => Action.update (addDevice address device)
    | none => Action.halt .outOfBounds

/-- Plugs in a bridge of the controller's vendor, unless there is a function already, and makes it
multi-function. -/
def addHostBridge (address : Pci.Address) (machine : SimMachine) : SimMachine :=
  let machine :=
    if (machine.devices.get? address).isSome then machine
    else machine.addDevice address (.ofIdentity 0x1022 0x1480 0x06)
  machine.setMultifunction address

/-- Plugs in a remapping controller with its registers at `base`, behind a host bridge at function
0 where it is not function 0 itself. -/
def addController (address : Pci.Address) (base : UInt64) : Action SimMachine Unit := do
  if address.function ≠ 0 then
    Action.update (addHostBridge { address with function := 0 })
  Action.update (addDevice address (.ofIdentity 0x1022 0x1451 0x08))
  addCapability address 0x05 [0, 0]
  addCapability address 0x0F [base.toUInt32 ||| 1, (base >>> 32).toUInt32]

/-- Every bit is set where there is no function. -/
def configRead (machine : SimMachine) (address : Pci.Address) (offset : UInt16) : UInt32 :=
  match machine.devices.get? address with
  | some device => device.read offset
  | none => 0xFFFFFFFF

def configWrite (address : Pci.Address) (offset : UInt16) (value : UInt32) :
    SimMachine → SimMachine :=
  modifyDevice address fun device => device.write offset value

def registerRead (machine : SimMachine) (address : UInt64) : UInt32 :=
  machine.registers.getD address 0

/-- Sets a register, stuck bits included. -/
def setRegister (address : UInt64) (value : UInt32) (machine : SimMachine) : SimMachine :=
  { machine with registers := machine.registers.insert address value }

/-- Writes a register; stuck bits keep what they have. -/
def registerWrite (address : UInt64) (value : UInt32) (machine : SimMachine) : SimMachine :=
  let stuck := machine.stuckBits.getD address 0
  machine.setRegister address ((value &&& ~~~stuck) ||| (machine.registerRead address &&& stuck))

/-- Makes the bits of `mask`, and only these, stuck in a register. -/
def stickRegister (address : UInt64) (mask : UInt32) (machine : SimMachine) : SimMachine :=
  { machine with stuckBits := machine.stuckBits.insert address mask }

/-! ## Cores -/

def core (machine : SimMachine) (id : UInt32) : Sim.Core := machine.cores.getD id {}

def setCore (id : UInt32) (core : Sim.Core) (machine : SimMachine) : SimMachine :=
  { machine with cores := machine.cores.insert id core }

def modifyCore (id : UInt32) (change : Sim.Core → Sim.Core) (machine : SimMachine) : SimMachine :=
  machine.setCore id (change (machine.core id))

def setResponsive (id : UInt32) (responsive : Bool) : SimMachine → SimMachine :=
  modifyCore id fun core => { core with responsive }

/-- Makes a core leave `polls` questions unanswered after each later signal. -/
def delayAcks (id : UInt32) (polls : Nat) : SimMachine → SimMachine :=
  modifyCore id fun core => { core with delay := polls }

def isParked (machine : SimMachine) (id : UInt32) : Bool := (machine.core id).parked

def context (machine : SimMachine) (id : UInt32) : Context := (machine.core id).context

def setContext (id : UInt32) (context : Context) : SimMachine → SimMachine :=
  modifyCore id fun core => { core with context }

def signalCore (id : UInt32) (signal : Signal) (machine : SimMachine) : Except Error SimMachine :=
  if maxCores ≤ id.toNat then .error (.config .coreOutsideMailbox)
  else .ok ((machine.modifyCore id fun core => core.post signal).record (.signal id signal))

/-- Whether a core has acknowledged a signal; a core that does so now is recorded. -/
def acknowledged (id : UInt32) (signal : Signal) (machine : SimMachine) : Bool × SimMachine :=
  let core := machine.core id
  let next := machine.setCore id (core.asked signal)
  match core.answer signal with
  | .pending => (false, next)
  | .before => (true, next)
  | .now => (true, next.record (.ack id signal))

/-! ## Memory and time -/

def writeByte (address : UInt64) (byte : UInt8) (machine : SimMachine) : SimMachine :=
  { machine with memory := machine.memory.write address byte }

/-- Writes bytes one after the other; past the last address it stops. -/
def poke (address : UInt64) : List UInt8 → Action SimMachine Unit
  | [] => pure ()
  | [byte] => Action.update (writeByte address byte)
  | byte :: rest => do
    Action.update (writeByte address byte)
    poke (← Action.word (Word.add? address 1)) rest

/-- The bytes from `address` on, all of which must be addresses. -/
def peek (address : UInt64) (count : Nat) : Action SimMachine (List UInt8) := do
  if UInt64.size < address.toNat + count then
    Action.halt .overflow
  pure ((← Action.get).memory.readList address count)

/-- Lets `count` copies succeed and every later one fail. -/
def failCopiesAfter (count : Nat) (machine : SimMachine) : SimMachine :=
  { machine with copiesLeft := some count }

/-- Copies memory. A failing copy is counted like any other, but changes and records nothing. -/
def copy (target source size : UInt64) (machine : SimMachine) : Except Error Unit × SimMachine :=
  if machine.copiesLeft = some 0 then (.error .copyFailed, machine)
  else
    let machine := { machine with copiesLeft := machine.copiesLeft.map (· - 1) }
    if (Word.add? source size).isNone ∨ (Word.add? target size).isNone then
      (.error .copyFailed, machine)
    else
      (.ok (), { machine with memory := machine.memory.copy target source size }.record
        (.copy target source size))

/-- Reads the clock, which moves on by one tick first. -/
def now (machine : SimMachine) : Option (UInt64 × SimMachine) :=
  (Word.add? machine.clock tick).map fun clock => (clock, { machine with clock })

instance : Mmio SimMachine where
  mmioRead := registerRead
  mmioWrite := registerWrite

instance : Machine SimMachine where
  signal := signalCore
  acknowledged := acknowledged
  context := context
  setContext := setContext
  copy := copy
  now := now

instance : Board SimMachine where
  leaves := leaf
  configSpace := configRead
  readControl machine register := machine.control.read register
  writeControl register value machine :=
    { machine with control := machine.control.write register value }

end SimMachine
end CellVisor
