import CellVisor.Proofs.Action
import CellVisor.Proofs.Sim.Primitives

/-!
# CellVisor.Proofs.Sim.Trace

What the simulated machine records of its cores, whatever is done to it.

* `SimMachine.Operation`: everything that can be done to a machine, except to clear its record.
* `SimMachine.turned_act`: what an operation means for a core. It is signalled, it acknowledges what
  it was asked for, or nothing happens to it.
* `SimMachine.Recorded`: the record of a core agrees with the core. `recorded_of_turned`: whatever
  happens to it, it stays so.
* `SimMachine.recorded_run`: so acknowledgments take turns, each answers the last signal to its
  core, and a core is parked where the last one was that of a freeze.
-/

namespace CellVisor

namespace SimEvent

variable {core : UInt32} {event : SimEvent}

/-- The core that an event is about. -/
def core? : SimEvent → Option UInt32
  | .signal core _ | .ack core _ => some core
  | .copy .. => none

/-- What `core` acknowledges with an event. -/
def ack? (core : UInt32) : SimEvent → Option Signal
  | .ack id answered => if id = core then some answered else none
  | .signal .. | .copy .. => none

@[simp] theorem ack?_ack (core : UInt32) (answered : Signal) :
    (ack core answered).ack? core = some answered :=
  if_pos rfl

@[simp] theorem ack?_signal (core id : UInt32) (posted : Signal) :
    (signal id posted).ack? core = none := rfl

theorem ack?_of_core?_ne (h : event.core? ≠ some core) : event.ack? core = none := by
  cases event with
  | signal | copy => rfl
  | ack id answered => exact if_neg fun hid => h (congrArg some hid)

end SimEvent

namespace SimMachine

/-! ## What is done -/

/-- What can be done to a machine. -/
inductive Operation
  | signal (core : UInt32) (signal : Signal)
  /-- Asks a core whether it has acknowledged a signal. -/
  | poll (core : UInt32) (signal : Signal)
  | setResponsive (core : UInt32) (responsive : Bool)
  | delayAcks (core : UInt32) (polls : Nat)
  | setContext (core : UInt32) (context : Context)
  | copy (target source size : UInt64)
  | failCopiesAfter (count : Nat)
  | poke (address : UInt64) (bytes : List UInt8)
  | readClock
  | setLeaf (leaf subleaf : UInt32) (result : Leaf)
  | addDevice (address : Pci.Address) (device : Sim.Device)
  | setMultifunction (address : Pci.Address)
  | addCapability (address : Pci.Address) (id : UInt8) (payload : List UInt32)
  | addHostBridge (address : Pci.Address)
  | addController (address : Pci.Address) (base : UInt64)
  | configWrite (address : Pci.Address) (offset : UInt16) (value : UInt32)
  | setRegister (address : UInt64) (value : UInt32)
  | registerWrite (address : UInt64) (value : UInt32)
  | stickRegister (address : UInt64) (mask : UInt32)
  | writeControl (register : ControlRegister) (value : UInt64)
  | stickControl (register : ControlRegister) (mask : UInt64)

def Operation.act : Operation → Action SimMachine Unit
  | signal core posted => Action.ofStep (signalCore core posted)
  | poll core posted => Action.update fun machine => (acknowledged core posted machine).2
  | setResponsive core responsive => Action.update (SimMachine.setResponsive core responsive)
  | delayAcks core polls => Action.update (SimMachine.delayAcks core polls)
  | setContext core context => Action.update (SimMachine.setContext core context)
  | copy target source size => Action.update fun machine => (machine.copy target source size).2
  | failCopiesAfter count => Action.update (SimMachine.failCopiesAfter count)
  | poke address bytes => SimMachine.poke address bytes
  | readClock => (Action.ofReading now).discard
  | setLeaf leaf subleaf result => Action.update (SimMachine.setLeaf leaf subleaf result)
  | addDevice address device => Action.update (SimMachine.addDevice address device)
  | setMultifunction address => Action.update (SimMachine.setMultifunction address)
  | addCapability address id payload => SimMachine.addCapability address id payload
  | addHostBridge address => Action.update (SimMachine.addHostBridge address)
  | addController address base => SimMachine.addController address base
  | configWrite address offset value =>
    Action.update (SimMachine.configWrite address offset value)
  | setRegister address value => Action.update (SimMachine.setRegister address value)
  | registerWrite address value => Action.update (SimMachine.registerWrite address value)
  | stickRegister address mask => Action.update (SimMachine.stickRegister address mask)
  | writeControl register value => Action.update (Board.writeControl register value)
  | stickControl register mask =>
    Action.update fun machine => { machine with control := machine.control.stick register mask }

/-! ## What happens to a core -/

/-- Neither the cores nor the record have changed. -/
structure Calm (machine next : SimMachine) : Prop where
  cores : next.cores = machine.cores
  history : next.history = machine.history

/-- A core is where it was, with the request that it had. -/
structure SameCore (core : UInt32) (machine next : SimMachine) : Prop where
  parked : next.isParked core = machine.isParked core
  request : (next.core core).request = (machine.core core).request

/-- What an operation means for a core. -/
inductive Turned (core : UInt32) (machine next : SimMachine) : Prop where
  | idle (events : next.events = machine.events) (same : SameCore core machine next)
  /-- Something that does not concern the core is recorded. -/
  | elsewhere (event : SimEvent) (other : event.core? ≠ some core)
      (events : next.events = machine.events ++ [event]) (same : SameCore core machine next)
  | signalled (signal : Signal) (events : next.events = machine.events ++ [.signal core signal])
      (parked : next.isParked core = machine.isParked core)
      (request : (next.core core).request = some { signal })
  /-- The core acts on a request that it has not acknowledged before. -/
  | answered (signal : Signal) (requested : (machine.core core).request = some { signal })
      (heeded : (machine.core core).heeds signal = true)
      (events : next.events = machine.events ++ [.ack core signal])
      (parked : next.isParked core = decide (signal = .freeze))
      (request : (next.core core).request = some { signal, acknowledged := true })

section Turned

variable {core : UInt32} {machine next : SimMachine}

theorem Calm.turned (h : Calm machine next) (core : UInt32) : Turned core machine next := by
  have hcore : next.core core = machine.core core := by
    unfold SimMachine.core
    rw [h.cores]
  refine .idle ?_ ⟨?_, ?_⟩
  · unfold events
    rw [h.history]
  · unfold isParked
    rw [hcore]
  · rw [hcore]

theorem turned_signalCore {id : UInt32} {signal : Signal}
    (h : signalCore id signal machine = .ok next) (core : UInt32) : Turned core machine next := by
  have hevents := events_of_signalCore h
  have hparked := congrFun (isParked_of_signalCore h) core
  have hcore := core_of_signalCore h core
  by_cases hid : core = id
  · subst hid
    rw [if_pos rfl] at hcore
    exact .signalled signal hevents hparked (by rw [hcore, Sim.Core.request_post])
  · rw [if_neg hid] at hcore
    exact .elsewhere (.signal id signal) (fun hsame => hid (Option.some.inj hsame).symm) hevents
      ⟨hparked, by rw [hcore]⟩

theorem turned_acknowledged (id : UInt32) (signal : Signal) (machine : SimMachine)
    (core : UInt32) : Turned core machine (acknowledged id signal machine).2 := by
  have hevents := events_acknowledged id signal machine
  have hparked := isParked_acknowledged id signal machine core
  have hcore := core_acknowledged id signal machine core
  by_cases hnow : (machine.core id).answer signal = .now
  · rw [if_pos hnow] at hevents
    by_cases hid : core = id
    · subst hid
      rw [if_pos ⟨rfl, hnow⟩] at hparked
      rw [if_pos rfl, Sim.Core.asked_of_now hnow] at hcore
      exact .answered signal (Sim.Core.request_of_now hnow) (Sim.Core.heeds_of_now hnow) hevents
        hparked (by rw [hcore])
    · rw [if_neg fun both => hid both.1] at hparked
      rw [if_neg hid] at hcore
      exact .elsewhere (.ack id signal) (fun hsame => hid (Option.some.inj hsame).symm) hevents
        ⟨hparked, by rw [hcore]⟩
  · rw [if_neg hnow, List.append_nil] at hevents
    rw [if_neg fun both => hnow both.2] at hparked
    refine .idle hevents ⟨hparked, ?_⟩
    rw [hcore]
    split
    · rename_i hid
      rw [Sim.Core.request_asked_of_ne hnow, hid]
    · rfl

/-- A change that leaves a core where it is, with its request. -/
theorem turned_modifyCore (id : UInt32) (change : Sim.Core → Sim.Core)
    (hparked : ∀ core, (change core).parked = core.parked)
    (hrequest : ∀ core, (change core).request = core.request) (machine : SimMachine)
    (core : UInt32) : Turned core machine (machine.modifyCore id change) := by
  refine .idle rfl ⟨congrFun (isParked_modifyCore hparked) core, ?_⟩
  rw [core_modifyCore]
  split
  · rename_i hid
    rw [hrequest, hid]
  · rfl

theorem turned_copy (target source size : UInt64) (machine : SimMachine) (core : UInt32) :
    Turned core machine (machine.copy target source size).2 := by
  have hcopied := copy_cases target source size machine
  generalize machine.copy target source size = reply at hcopied ⊢
  cases hcopied with
  | failed => exact .idle rfl ⟨rfl, rfl⟩
  | done copiesLeft =>
    exact .elsewhere (.copy target source size) nofun (by simp [events]) ⟨rfl, rfl⟩

end Turned

/-! ## Operations that leave the cores alone -/

section Calm

variable {machine : SimMachine}

theorem calm_refl (machine : SimMachine) : Calm machine machine := ⟨rfl, rfl⟩

theorem Calm.trans {first second third : SimMachine} (h : Calm first second)
    (hlater : Calm second third) : Calm first third :=
  ⟨hlater.cores.trans h.cores, hlater.history.trans h.history⟩

theorem calm_modifyDevice (address : Pci.Address) (change : Sim.Device → Sim.Device)
    (machine : SimMachine) : Calm machine (modifyDevice address change machine) := by
  unfold modifyDevice
  split <;> exact ⟨rfl, rfl⟩

theorem calm_addHostBridge (address : Pci.Address) (machine : SimMachine) :
    Calm machine (addHostBridge address machine) := by
  unfold addHostBridge
  refine Calm.trans ?_ (calm_modifyDevice address _ _)
  split <;> exact ⟨rfl, rfl⟩

theorem keeps_calm_update {change : SimMachine → SimMachine} (start : SimMachine)
    (h : ∀ machine, Calm machine (change machine)) :
    Action.Keeps (Calm start) (Action.update change) :=
  fun machine hstart => hstart.trans (h machine)

theorem keeps_calm_addDevice (start : SimMachine) (address : Pci.Address) (device : Sim.Device) :
    Action.Keeps (Calm start) (Action.update (addDevice address device)) := by
  apply keeps_calm_update
  exact fun _ => ⟨rfl, rfl⟩

theorem keeps_calm_addCapability (start : SimMachine) (address : Pci.Address) (id : UInt8)
    (payload : List UInt32) : Action.Keeps (Calm start) (addCapability address id payload) := by
  unfold addCapability
  refine Action.Keeps.bind (fun _ h => h) fun machine => ?_
  split
  · exact Action.keeps_pure ()
  · split
    · exact keeps_calm_addDevice start address _
    · exact fun _ h => h

theorem keeps_addController {P : SimMachine → Prop} (address : Pci.Address) (base : UInt64)
    (bridge : Action.Keeps P (Action.update (addHostBridge { address with function := 0 })))
    (device : Action.Keeps P (Action.update (addDevice address (.ofIdentity 0x1022 0x1451 0x08))))
    (capability : ∀ id payload, Action.Keeps P (addCapability address id payload)) :
    Action.Keeps P (addController address base) := by
  have hplugged : Action.Keeps P (do
      Action.update (addDevice address (.ofIdentity 0x1022 0x1451 0x08))
      addCapability address 0x05 [0, 0]
      addCapability address 0x0F [base.toUInt32 ||| 1, (base >>> 32).toUInt32]) :=
    device.bind fun _ => (capability _ _).bind fun _ => capability _ _
  unfold addController
  dsimp only
  split
  · exact bridge.bind fun _ => hplugged
  · exact hplugged

theorem keeps_calm_addController (start : SimMachine) (address : Pci.Address) (base : UInt64) :
    Action.Keeps (Calm start) (addController address base) :=
  keeps_addController address base (keeps_calm_update start (calm_addHostBridge _))
    (keeps_calm_addDevice start address _) (keeps_calm_addCapability start address)

theorem keeps_poke {P : SimMachine → Prop}
    (h : ∀ address byte, Action.Keeps P (Action.update (writeByte address byte)))
    (address : UInt64) (bytes : List UInt8) : Action.Keeps P (poke address bytes) := by
  induction bytes generalizing address with
  | nil => exact Action.keeps_pure ()
  | cons byte rest ih =>
    cases rest with
    | nil => exact h address byte
    | cons second rest =>
      refine (h address byte).bind fun _ => ?_
      cases hnext : Word.add? address 1 with
      | none => exact fun _ h => h
      | some next => exact ih next

theorem keeps_calm_poke (start : SimMachine) (address : UInt64) (bytes : List UInt8) :
    Action.Keeps (Calm start) (poke address bytes) := by
  refine keeps_poke (fun address byte => ?_) address bytes
  exact keeps_calm_update start fun _ => ⟨rfl, rfl⟩

theorem calm_ofReading_now (machine : SimMachine) :
    Calm machine (Action.ofReading now machine).state := by
  unfold Action.ofReading
  split
  · rename_i hclock
    obtain ⟨-, rfl⟩ := now_eq_some.1 hclock
    exact ⟨rfl, rfl⟩
  · exact calm_refl machine

end Calm

theorem turned_signal (id : UInt32) (signal : Signal) (machine : SimMachine) (core : UInt32) :
    Turned core machine (Action.ofStep (signalCore id signal) machine).state := by
  unfold Action.ofStep
  split
  · rename_i hsignal
    exact turned_signalCore hsignal core
  · exact (calm_refl machine).turned core

theorem turned_act (operation : Operation) (machine : SimMachine) (core : UInt32) :
    Turned core machine (operation.act machine).state := by
  cases operation with
  | signal id signal => exact turned_signal id signal machine core
  | poll id signal => exact turned_acknowledged id signal machine core
  | setResponsive id responsive =>
    exact turned_modifyCore id (fun core => { core with responsive }) (fun _ => rfl)
      (fun _ => rfl) machine core
  | delayAcks id polls =>
    exact turned_modifyCore id (fun core => { core with delay := polls }) (fun _ => rfl)
      (fun _ => rfl) machine core
  | setContext id context =>
    exact turned_modifyCore id (fun core => { core with context }) (fun _ => rfl)
      (fun _ => rfl) machine core
  | copy target source size => exact turned_copy target source size machine core
  | poke address bytes =>
    exact (keeps_calm_poke machine address bytes machine (calm_refl machine)).turned core
  | readClock =>
    rw [Operation.act, Action.state_discard]
    exact (calm_ofReading_now machine).turned core
  | addCapability address id payload =>
    exact (keeps_calm_addCapability machine address id payload machine
      (calm_refl machine)).turned core
  | addController address base =>
    exact (keeps_calm_addController machine address base machine (calm_refl machine)).turned core
  | addHostBridge address => exact (calm_addHostBridge address machine).turned core
  | setMultifunction address | configWrite address =>
    exact (calm_modifyDevice address _ machine).turned core
  | failCopiesAfter | setLeaf | addDevice | setRegister | registerWrite | stickRegister
  | writeControl | stickControl =>
    refine Calm.turned ?_ core
    exact ⟨rfl, rfl⟩

/-! ## The record of a core -/

/-- What a core acknowledges, in its order. -/
def acks (core : UInt32) (events : List SimEvent) : List Signal :=
  events.filterMap (SimEvent.ack? core)

/-- Signals that take turns, a freeze first. -/
def turn (i : Nat) : Signal := if i % 2 = 0 then .freeze else .thaw

/-- The last event of a core is that it is sent `signal`. -/
def Requested (core : UInt32) (signal : Signal) (events : List SimEvent) : Prop :=
  ∃ before since, events = before ++ .signal core signal :: since ∧
    ∀ event ∈ since, event.core? ≠ some core

/-- The record of a core agrees with the core. -/
structure Recorded (core : UInt32) (machine : SimMachine) : Prop where
  turns : acks core machine.events = (List.range (acks core machine.events).length).map turn
  parked : machine.isParked core = decide ((acks core machine.events).length % 2 = 1)
  /-- Each acknowledgment answers the last signal. -/
  answers : ∀ earlier signal, earlier ++ [.ack core signal] <+: machine.events →
    Requested core signal earlier
  request : ∀ signal, (machine.core core).request = some { signal } →
    Requested core signal machine.events

section Recorded

variable {core : UInt32} {machine next : SimMachine} {events : List SimEvent} {event : SimEvent}

theorem acks_concat_of_none (h : event.ack? core = none) :
    acks core (events ++ [event]) = acks core events := by
  unfold acks
  rw [List.filterMap_append, List.filterMap_cons_none h, List.filterMap_nil, List.append_nil]

theorem acks_concat_ack (signal : Signal) :
    acks core (events ++ [.ack core signal]) = acks core events ++ [signal] := by
  unfold acks
  rw [List.filterMap_append, List.filterMap_cons_some (SimEvent.ack?_ack core signal),
    List.filterMap_nil]

theorem requested_concat_signal (signal : Signal) :
    Requested core signal (events ++ [.signal core signal]) :=
  ⟨events, [], rfl, fun _ h => absurd h List.not_mem_nil⟩

theorem Requested.concat {signal : Signal} (h : Requested core signal events)
    (other : event.core? ≠ some core) : Requested core signal (events ++ [event]) := by
  obtain ⟨before, since, rfl, hsince⟩ := h
  refine ⟨before, since ++ [event], by simp, fun found hfound => ?_⟩
  rcases List.mem_append.1 hfound with hfound | hfound
  · exact hsince found hfound
  · rw [List.mem_singleton.1 hfound]
    exact other

/-- No acknowledgment of the core is new. -/
theorem answers_concat (h : ∀ earlier signal, earlier ++ [.ack core signal] <+: events →
    Requested core signal earlier) (hnone : event.ack? core = none) :
    ∀ earlier signal, earlier ++ [.ack core signal] <+: events ++ [event] →
      Requested core signal earlier := by
  intro earlier signal hfirst
  rcases List.prefix_concat_iff.1 hfirst with hlast | hbefore
  · obtain ⟨-, hevent⟩ := List.append_inj' hlast rfl
    rw [← List.singleton_inj.1 hevent, SimEvent.ack?_ack] at hnone
    cases hnone
  · exact h earlier signal hbefore

theorem turn_eq_freeze_iff {i : Nat} : turn i = .freeze ↔ i % 2 = 0 := by
  unfold turn
  split <;> simp [*]

/-- A core heeds the signal whose turn it is. -/
theorem eq_turn_of_heeds {core : Sim.Core} {signal : Signal} {i : Nat}
    (parked : core.parked = decide (i % 2 = 1)) (heeded : core.heeds signal = true) :
    signal = turn i := by
  unfold turn
  cases signal with
  | freeze =>
    have hruns : core.parked = false := by simpa [Sim.Core.heeds] using heeded
    have hodd : ¬ i % 2 = 1 := of_decide_eq_false (parked.symm.trans hruns)
    rw [if_pos (by omega)]
  | thaw =>
    have hodd : i % 2 = 1 := of_decide_eq_true (parked.symm.trans heeded)
    rw [if_neg (by omega)]

/-- Whatever happens to a core, its record agrees with it. -/
theorem recorded_of_turned (h : Recorded core machine) (hturned : Turned core machine next) :
    Recorded core next := by
  cases hturned with
  | idle hevents same =>
    exact
      { turns := by rw [hevents]; exact h.turns
        parked := by rw [hevents, same.parked, h.parked]
        answers := by rw [hevents]; exact h.answers
        request := fun signal hrequest => by
          rw [hevents]
          exact h.request signal (same.request.symm.trans hrequest) }
  | elsewhere event other hevents same =>
    have hnone := SimEvent.ack?_of_core?_ne other
    have hacks : acks core next.events = acks core machine.events := by
      rw [hevents, acks_concat_of_none hnone]
    exact
      { turns := by rw [hacks]; exact h.turns
        parked := by rw [hacks, same.parked, h.parked]
        answers := by rw [hevents]; exact answers_concat h.answers hnone
        request := fun signal hrequest => by
          rw [hevents]
          exact (h.request signal (same.request.symm.trans hrequest)).concat other }
  | signalled posted hevents parked request =>
    have hnone := SimEvent.ack?_signal core core posted
    have hacks : acks core next.events = acks core machine.events := by
      rw [hevents, acks_concat_of_none hnone]
    exact
      { turns := by rw [hacks]; exact h.turns
        parked := by rw [hacks, parked, h.parked]
        answers := by rw [hevents]; exact answers_concat h.answers hnone
        request := fun signal hrequest => by
          rw [request] at hrequest
          cases hrequest
          rw [hevents]
          exact requested_concat_signal posted }
  | answered signal requested heeded hevents parked request =>
    have hacks : acks core next.events = acks core machine.events ++ [signal] := by
      rw [hevents, acks_concat_ack]
    have hturn := eq_turn_of_heeds h.parked heeded
    exact
      { turns := by
          rw [hacks, List.length_append, List.length_singleton, List.range_succ, List.map_append,
            ← h.turns, List.map_singleton, ← hturn]
        parked := by
          rw [parked, hacks, List.length_append, List.length_singleton, decide_eq_decide, hturn,
            turn_eq_freeze_iff]
          omega
        answers := fun earlier answer hfirst => by
          rw [hevents] at hfirst
          rcases List.prefix_concat_iff.1 hfirst with hlast | hbefore
          · obtain ⟨rfl, hevent⟩ := List.append_inj' hlast rfl
            cases hevent
            exact h.request signal requested
          · exact h.answers earlier answer hbefore
        request := fun other hrequest => by
          rw [request] at hrequest
          cases hrequest }

theorem recorded_ofCores (count core : UInt32) : Recorded core (.ofCores count) where
  turns := rfl
  parked := rfl
  answers earlier signal hfirst := by
    have hlength := hfirst.length_le
    rw [List.length_append] at hlength
    exact absurd hlength (Nat.not_succ_le_zero _)
  request signal hrequest := by cases hrequest

/-- A core is parked where the last that it has acknowledged is a freeze. -/
theorem Recorded.isParked_iff (h : Recorded core machine) :
    machine.isParked core = true ↔ (acks core machine.events).getLast? = some .freeze := by
  rw [h.parked, h.turns, List.length_map, List.length_range, decide_eq_true_iff]
  cases (acks core machine.events).length with
  | zero => simp
  | succ n =>
    rw [List.range_succ, List.map_append, List.map_singleton, List.getLast?_concat,
      Option.some.injEq, turn_eq_freeze_iff]
    omega

end Recorded

/-- Whatever is done to a machine, each core acknowledges a freeze and a thaw in turn, a freeze
first, and each time it answers the last signal that it was sent, which came after all that it has
acknowledged before. It is parked exactly where a freeze is the last that it has acknowledged. -/
theorem recorded_run (count : UInt32) (operations : List Operation) (core : UInt32) :
    let machine := (Action.attemptEach Operation.act operations (.ofCores count)).state
    let acks := machine.events.filterMap (SimEvent.ack? core)
    (∀ i signal, acks[i]? = some signal → signal = if i % 2 = 0 then .freeze else .thaw) ∧
    (∀ earlier signal later, machine.events = earlier ++ .ack core signal :: later →
      ∃ before since, earlier = before ++ .signal core signal :: since ∧
        ∀ event ∈ since, event.core? ≠ some core) ∧
    (machine.isParked core = true ↔ acks.getLast? = some .freeze) := by
  intro machine acks
  have hstep (operation : Operation) : Action.Keeps (Recorded core) operation.act :=
    fun machine h => recorded_of_turned h (turned_act operation machine core)
  have hkeeps := Action.keeps_attemptEach hstep operations
  have hrecorded : Recorded core machine := hkeeps _ (recorded_ofCores count core)
  refine ⟨fun i signal hsignal => ?_, fun earlier signal later hevents => ?_,
    hrecorded.isParked_iff⟩
  · have hturns : acks = (List.range acks.length).map turn := hrecorded.turns
    rw [hturns, List.getElem?_map] at hsignal
    obtain ⟨j, hj, rfl⟩ := Option.map_eq_some_iff.1 hsignal
    obtain ⟨-, rfl⟩ := List.getElem?_eq_some_iff.1 hj
    rw [List.getElem_range]
    rfl
  · exact hrecorded.answers earlier signal ⟨later, by rw [hevents]; simp⟩

/-- The core is not parked when it is asked for a thaw, and not running when it is sent a second
freeze. -/
example :
    (Action.attemptEach Operation.act
      [.signal 1 .freeze, .poll 1 .thaw, .poll 1 .freeze, .poll 1 .freeze, .signal 1 .freeze,
        .poll 1 .freeze, .signal 1 .thaw, .poll 1 .thaw] (.ofCores 4)).state.events =
      [.signal 1 .freeze, .ack 1 .freeze, .signal 1 .freeze, .signal 1 .thaw, .ack 1 .thaw] := by
  decide +kernel

end SimMachine
end CellVisor
