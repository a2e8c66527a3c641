import CellVisor.Proofs.Sim.Capabilities
import CellVisor.Proofs.Sim.Trace

/-!
# CellVisor.Proofs.Sim.Plugged

Machines on whose bus 0 functions were only plugged in and given capabilities.

* `SimMachine.Plugged`: each function of bus 0 has the identity that it was plugged in with.
* `SimMachine.plugged_run`: so it is after any run of operations that keep to this
  (`Operation.Plugs`).
* `SimMachine.addController_eq`: what a machine is when a controller was plugged in.
-/

namespace CellVisor
namespace Sim

/-! ## One function -/

namespace Device

/-- A function with an identity of which a scan takes notice, to which capabilities were added. -/
def Plugged (device : Device) : Prop :=
  ∃ identity capabilities, device.Laid identity capabilities ∧
    identity.vendor ≠ 0 ∧ identity.vendor ≠ 0xFFFF

section Plugged

variable {device after : Device} {vendor id : UInt16}

theorem plugged_ofIdentity (hvendor : vendor ≠ 0 ∧ vendor ≠ 0xFFFF) (id : UInt16)
    (baseClass : UInt8) : (ofIdentity vendor id baseClass).Plugged :=
  ⟨_, [], laid_ofIdentity vendor id baseClass, hvendor⟩

theorem Plugged.addCapability? (h : device.Plugged) {id : UInt8} {payload : List UInt32}
    (hadd : device.addCapability? id payload = some after) : after.Plugged := by
  obtain ⟨identity, capabilities, hlaid, hvendor⟩ := h
  rcases Nat.lt_or_ge 64 (16 + Addition.extent (capabilities ++ [⟨id, payload⟩])) with hfull | hroom
  · have hnone : device.addCapability? id payload = none := hlaid.add_of_full hfull
    cases hnone.symm.trans hadd
  · obtain ⟨extended, hextended, hafter⟩ := hlaid.add hroom
    cases hextended.symm.trans hadd
    exact ⟨identity, _, hafter, hvendor⟩

theorem Plugged.setMultifunction (h : device.Plugged) : device.setMultifunction.Plugged := by
  obtain ⟨identity, capabilities, hlaid, hvendor⟩ := h
  exact ⟨identity, capabilities, hlaid.setMultifunction, hvendor⟩

end Plugged

end Device
end Sim

namespace SimMachine

/-! ## What is plugged in -/

/-- Every function of bus 0 was plugged in. -/
def Plugged (machine : SimMachine) : Prop :=
  ∀ address device, address.bus = 0 → machine.devices.get? address = some device → device.Plugged

/-- An operation that does nothing else to bus 0 than to plug in functions, with vendors of which a
scan takes notice, and to add to what is there. -/
def Operation.Plugs : Operation → Prop
  | addDevice address device =>
    address.bus = 0 → ∃ vendor id baseClass,
      device = .ofIdentity vendor id baseClass ∧ vendor ≠ 0 ∧ vendor ≠ 0xFFFF
  | configWrite address _ _ => address.bus ≠ 0
  | _ => True

section Plugged

variable {machine next : SimMachine} {address : Pci.Address} {device : Sim.Device}

theorem Plugged.of_devices (h : machine.Plugged) (same : next.devices = machine.devices) :
    next.Plugged := by
  unfold Plugged
  rw [same]
  exact h

theorem Plugged.addDevice (h : machine.Plugged) (hdevice : address.bus = 0 → device.Plugged) :
    (machine.addDevice address device).Plugged := by
  intro other found hbus hfound
  rw [get?_addDevice] at hfound
  split at hfound
  · rename_i hother
    cases hfound
    exact hdevice (hother ▸ hbus)
  · exact h other found hbus hfound

theorem Plugged.modifyDevice (h : machine.Plugged) {change : Sim.Device → Sim.Device}
    (hchange : address.bus = 0 → ∀ device : Sim.Device, device.Plugged → (change device).Plugged) :
    (machine.modifyDevice address change).Plugged := by
  unfold SimMachine.modifyDevice
  split
  · rename_i device hdevice
    exact h.addDevice fun hbus => hchange hbus device (h address device hbus hdevice)
  · exact h

theorem Plugged.setMultifunction (h : machine.Plugged) (address : Pci.Address) :
    (machine.setMultifunction address).Plugged :=
  h.modifyDevice fun _ _ hdevice => hdevice.setMultifunction

theorem Plugged.addHostBridge (h : machine.Plugged) (address : Pci.Address) :
    (machine.addHostBridge address).Plugged := by
  unfold SimMachine.addHostBridge
  dsimp only
  split
  · exact h.setMultifunction address
  · refine (h.addDevice fun _ => ?_).setMultifunction address
    exact Sim.Device.plugged_ofIdentity (by decide) 0x1480 0x06

theorem keeps_plugged_addCapability (address : Pci.Address) (id : UInt8) (payload : List UInt32) :
    Action.Keeps Plugged (addCapability address id payload) := by
  intro machine h
  cases hdevice : machine.devices.get? address with
  | none =>
    unfold addCapability
    rw [Action.bind_of_ok (Action.get_apply machine), hdevice]
    exact h
  | some device =>
    cases hadd : device.addCapability? id payload with
    | none =>
      rw [addCapability_of_none hdevice hadd]
      exact h
    | some after =>
      rw [addCapability_of_some hdevice hadd]
      exact h.addDevice fun hbus => (h address device hbus hdevice).addCapability? hadd

theorem keeps_plugged_addController (address : Pci.Address) (base : UInt64) :
    Action.Keeps Plugged (addController address base) :=
  keeps_addController address base (fun _ h => h.addHostBridge _)
    (fun _ h => h.addDevice fun _ => Sim.Device.plugged_ofIdentity (by decide) 0x1451 0x08)
    (keeps_plugged_addCapability address)

theorem devices_ofStep_signalCore (id : UInt32) (signal : Signal) (machine : SimMachine) :
    (Action.ofStep (signalCore id signal) machine).state.devices = machine.devices := by
  unfold Action.ofStep
  split
  · rename_i hsignal
    obtain ⟨-, rfl⟩ := signalCore_eq_ok.1 hsignal
    rfl
  · rfl

theorem devices_acknowledged (id : UInt32) (signal : Signal) (machine : SimMachine) :
    (acknowledged id signal machine).2.devices = machine.devices := by
  rw [acknowledged_snd]
  dsimp only
  split <;> rfl

theorem devices_copy (target source size : UInt64) (machine : SimMachine) :
    (machine.copy target source size).2.devices = machine.devices := by
  have hcopied := copy_cases target source size machine
  generalize machine.copy target source size = reply at hcopied ⊢
  cases hcopied <;> rfl

theorem devices_ofReading_now (machine : SimMachine) :
    (Action.ofReading now machine).state.devices = machine.devices := by
  unfold Action.ofReading
  split
  · rename_i hclock
    obtain ⟨-, rfl⟩ := now_eq_some.1 hclock
    rfl
  · rfl

theorem keeps_plugged_act {operation : Operation} (plugs : operation.Plugs) :
    Action.Keeps Plugged operation.act := by
  intro machine h
  cases operation with
  | signal id signal => exact h.of_devices (devices_ofStep_signalCore id signal machine)
  | poll id signal => exact h.of_devices (devices_acknowledged id signal machine)
  | copy target source size => exact h.of_devices (devices_copy target source size machine)
  | poke address bytes =>
    exact keeps_poke (fun _ _ _ hmachine => hmachine.of_devices rfl) address bytes machine h
  | readClock =>
    rw [Operation.act, Action.state_discard]
    exact h.of_devices (devices_ofReading_now machine)
  | addDevice address device =>
    refine h.addDevice fun hbus => ?_
    obtain ⟨vendor, id, baseClass, rfl, hvendor⟩ := plugs hbus
    exact Sim.Device.plugged_ofIdentity hvendor id baseClass
  | setMultifunction address => exact h.setMultifunction address
  | addCapability address id payload =>
    exact keeps_plugged_addCapability address id payload machine h
  | addHostBridge address => exact h.addHostBridge address
  | addController address base => exact keeps_plugged_addController address base machine h
  | configWrite address offset value => exact h.modifyDevice fun hbus => absurd hbus plugs
  | setResponsive | delayAcks | setContext | failCopiesAfter | setLeaf | setRegister
  | registerWrite | stickRegister | writeControl | stickControl => exact h.of_devices rfl

/-- Whatever else is done to the machine, bus 0 stays like that. -/
theorem plugged_run {operations : List Operation}
    (plugs : ∀ operation ∈ operations, operation.Plugs) (h : machine.Plugged) :
    (Action.attemptEach Operation.act operations machine).state.Plugged :=
  Action.keeps_attemptEach_of_mem (fun operation hmem => keeps_plugged_act (plugs operation hmem))
    machine h

end Plugged

/-! ## A controller -/

/-- The machine that a controller is plugged into: with a bridge at function 0, if the controller
is another function. -/
def bridged (address : Pci.Address) (machine : SimMachine) : SimMachine :=
  if address.function ≠ 0 then machine.addHostBridge { address with function := 0 } else machine

/-- What the controller with its registers at `base` has. -/
def controllerCapabilities (base : UInt64) : List Sim.Addition :=
  [⟨0x05, [0, 0]⟩, ⟨0x0F, [base.toUInt32 ||| 1, (base >>> 32).toUInt32]⟩]

section Controller

variable {machine : SimMachine} {address : Pci.Address}

theorem get?_setMultifunction (address other : Pci.Address) (machine : SimMachine) :
    (machine.setMultifunction address).devices.get? other =
      if other = address then (machine.devices.get? address).map Sim.Device.setMultifunction
      else machine.devices.get? other := by
  unfold SimMachine.setMultifunction modifyDevice
  cases hdevice : machine.devices.get? address with
  | none =>
    dsimp only
    split
    · rename_i hother
      rw [hother, hdevice, Option.map_none]
    · rfl
  | some device => exact get?_addDevice _ _ _ _

theorem get?_addHostBridge (address other : Pci.Address) (machine : SimMachine) :
    (machine.addHostBridge address).devices.get? other =
      if other = address then
        some ((machine.devices.get? address).getD (.ofIdentity 0x1022 0x1480 0x06)).setMultifunction
      else machine.devices.get? other := by
  unfold addHostBridge
  dsimp only
  rw [get?_setMultifunction]
  cases hdevice : machine.devices.get? address with
  | none => simp +contextual
  | some device => simp [hdevice]

/-- The bridge announces more functions. -/
theorem isMultifunction_addHostBridge (address : Pci.Address) (machine : SimMachine) :
    Pci.ConfigSpace.isMultifunction (machine.addHostBridge address).configRead address = true := by
  have hdevice := get?_addHostBridge address address machine
  rw [if_pos rfl] at hdevice
  rw [Pci.ConfigSpace.isMultifunction, configRead_of_get? hdevice, Sim.Device.read_eq]
  exact decide_eq_true (Sim.Device.dword_setMultifunction _)

theorem get?_bridged (address other : Pci.Address) (machine : SimMachine) :
    (machine.bridged address).devices.get? other =
      if address.function ≠ 0 ∧ other = { address with function := 0 } then
        some ((machine.devices.get? other).getD (.ofIdentity 0x1022 0x1480 0x06)).setMultifunction
      else machine.devices.get? other := by
  unfold bridged
  by_cases hfunction : address.function ≠ 0
  · rw [if_pos hfunction, get?_addHostBridge]
    by_cases hother : other = { address with function := 0 }
    · rw [if_pos hother, if_pos ⟨hfunction, hother⟩, hother]
    · rw [if_neg hother, if_neg fun both => hother both.2]
  · rw [if_neg hfunction, if_neg fun both => hfunction both.1]

/-- A function with the same identity was there before, unless it is the new bridge. -/
theorem Plugged.hasLaid_of_bridged (h : machine.Plugged) {other : Pci.Address}
    {device : Sim.Device} (hbus : other.bus = 0)
    (hdevice : (machine.bridged address).devices.get? other = some device) :
    ∃ identity capabilities, device.Laid identity capabilities ∧
      (identity.vendor ≠ 0 ∧ identity.vendor ≠ 0xFFFF) ∧
      (machine.HasLaid other identity capabilities ∨ identity = ⟨0x1022, 0x1480, 0x06⟩) := by
  rw [get?_bridged] at hdevice
  split at hdevice
  · cases hdevice
    cases hfound : machine.devices.get? other with
    | some found =>
      obtain ⟨identity, capabilities, hlaid, hvendor⟩ := h other found hbus hfound
      exact ⟨identity, capabilities, hlaid.setMultifunction, hvendor, .inl ⟨found, hfound, hlaid⟩⟩
    | none =>
      have hlaid := Sim.Device.laid_ofIdentity 0x1022 0x1480 0x06
      exact ⟨_, [], hlaid.setMultifunction, by decide, .inr rfl⟩
  · obtain ⟨identity, capabilities, hlaid, hvendor⟩ := h other device hbus hdevice
    exact ⟨identity, capabilities, hlaid, hvendor, .inl ⟨device, hdevice, hlaid⟩⟩

/-- A controller is plugged in with its capabilities, and behind a bridge. -/
theorem addController_eq (address : Pci.Address) (base : UInt64) (machine : SimMachine) :
    ∃ after, addController address base machine = ⟨.ok (), after, []⟩ ∧
      after.HasLaid address ⟨0x1022, 0x1451, 0x08⟩ (controllerCapabilities base) ∧
      ∀ other, other ≠ address →
        after.devices.get? other = (machine.bridged address).devices.get? other := by
  have hfresh := hasLaid_addDevice (machine.bridged address) address
    (Sim.Device.laid_ofIdentity 0x1022 0x1451 0x08)
  obtain ⟨first, hfirst, hlaid, hkept⟩ := addCapability_of_room hfresh ⟨0x05, [0, 0]⟩ (by decide)
  obtain ⟨after, hafter, hboth, hkept'⟩ := addCapability_of_room hlaid
    ⟨0x0F, [base.toUInt32 ||| 1, (base >>> 32).toUInt32]⟩ (by simp [Sim.Addition.extent])
  have hplugged : (do
      Action.update (addDevice address (.ofIdentity 0x1022 0x1451 0x08))
      addCapability address 0x05 [0, 0]
      addCapability address 0x0F [base.toUInt32 ||| 1, (base >>> 32).toUInt32])
      (machine.bridged address) = ⟨.ok (), after, []⟩ := by
    rw [Action.bind_of_ok (Action.update_apply _ _), Action.bind_of_ok hfirst]
    exact hafter
  refine ⟨after, ?_, hboth, fun other hother => ?_⟩
  · unfold addController
    unfold SimMachine.bridged at hplugged
    dsimp only
    split
    · rename_i hfunction
      rw [if_pos hfunction] at hplugged
      rw [Action.bind_of_ok (Action.update_apply _ machine)]
      exact hplugged
    · rename_i hfunction
      rw [if_neg hfunction] at hplugged
      exact hplugged
  · rw [hkept' other hother, hkept other hother, get?_addDevice, if_neg hother]

end Controller

end SimMachine
end CellVisor
