import CellVisor.Proofs.Bits
import CellVisor.Proofs.Iommu.Isolation

/-!
# CellVisor.Proofs.Iommu.Enforcement

What the set-up of the devices comes to on a simulated machine, whatever its registers hold,
whichever of their bits are stuck, and whatever was known of the devices before.

* `SimMachine.registerBit_registerWrite`: the bits of the registers after a write.
* `Devices.registerBit_switchedOn`: to switch enforcement on sets its two bits, those that are not
  stuck, and nothing else.
* `Devices.init_cases`: a set-up ends with a controller that enforces, with one that does not, or
  without one.
* `Devices.init_exact`: what is reported agrees with the register, and nothing else has changed.
-/

namespace CellVisor

/-! ## Registers -/

namespace SimMachine

/-- Bit `i` of the register at `address`. -/
def registerBit (machine : SimMachine) (address : UInt64) (i : Nat) : Bool :=
  (machine.registerRead address).toBitVec.getLsbD i

/-- A register that is written takes the bits of the value that are not stuck. All the other bits of
the registers stay as they are. -/
theorem registerBit_registerWrite (machine : SimMachine) (address other : UInt64) (value : UInt32)
    (i : Nat) :
    (machine.registerWrite address value).registerBit other i =
      if other = address ∧ (machine.stuckBits.getD address 0).toBitVec.getLsbD i = false then
        value.toBitVec.getLsbD i
      else machine.registerBit other i := by
  unfold registerBit
  have hread : (machine.registerWrite address value).registerRead other =
      if other = address then
        (value &&& ~~~machine.stuckBits.getD address 0) |||
          (machine.registerRead address &&& machine.stuckBits.getD address 0)
      else machine.registerRead other := Table.getD_insert ..
  rw [hread]
  by_cases haddress : other = address
  · subst haddress
    rw [if_pos rfl, UInt32.toBitVec_or, UInt32.toBitVec_and, UInt32.toBitVec_and,
      UInt32.toBitVec_not, Word.getLsbD_mixed]
    simp only [true_and]
  · rw [if_neg haddress, if_neg fun h => haddress h.1]

end SimMachine

/-! ## The enforcement bits -/

namespace Controller

theorem getLsbD_enforcementBits (i : Nat) :
    enforcementBits.toBitVec.getLsbD i = decide (i = 0 ∨ i = 17) :=
  Word.getLsbD_eq_of_lt (fun i => decide (i = 0 ∨ i = 17)) (by decide)
    (fun _ _ => decide_eq_false (by omega)) i

theorem and_enforcementBits_iff {word : UInt32} :
    word &&& enforcementBits = enforcementBits ↔
      word.toBitVec.getLsbD 0 = true ∧ word.toBitVec.getLsbD 17 = true := by
  rw [← UInt32.toBitVec_inj, UInt32.toBitVec_and, Word.and_eq_right_iff]
  simp only [getLsbD_enforcementBits, decide_eq_true_iff, forall_eq_or_imp, forall_eq]

end Controller

namespace Devices

section Switched

variable (controller : Controller) (machine : SimMachine)

theorem registerBit_switchedOn (address : UInt64) (i : Nat) :
    (switchedOn controller machine).registerBit address i =
      (machine.registerBit address i ||
        decide (address = controller.controlRegister ∧
          (machine.stuckBits.getD controller.controlRegister 0).toBitVec.getLsbD i = false ∧
          (i = 0 ∨ i = 17))) := by
  refine (machine.registerBit_registerWrite ..).trans ?_
  split
  · rename_i hwritten
    obtain ⟨haddress, hloose⟩ := hwritten
    rw [haddress, UInt32.toBitVec_or, BitVec.getLsbD_or]
    simp only [hloose, true_and]
    rw [← Controller.getLsbD_enforcementBits]
    rfl
  · rename_i hkept
    rw [decide_eq_false fun h => hkept ⟨h.1, h.2.1⟩, Bool.or_false]

/-- Only the register of the controller changes, and there only an enforcement bit that was not
set. -/
theorem of_registerBit_switchedOn_ne {address : UInt64} {i : Nat}
    (changed : (switchedOn controller machine).registerBit address i ≠
      machine.registerBit address i) :
    address = controller.controlRegister ∧ (i = 0 ∨ i = 17) ∧
      machine.registerBit address i = false := by
  rw [registerBit_switchedOn] at changed
  cases hset : machine.registerBit address i with
  | true => simp [hset] at changed
  | false =>
    rw [hset, Bool.false_or, Bool.ne_false_iff, decide_eq_true_iff] at changed
    exact ⟨changed.1, changed.2.2, rfl⟩

theorem enforces_iff :
    Enforces controller machine ↔
      machine.registerBit controller.controlRegister 0 = true ∧
        machine.registerBit controller.controlRegister 17 = true :=
  Controller.and_enforcementBits_iff

end Switched

/-! ## The set-up -/

section Init

variable {M : Type} [Board M]

/-- How a set-up ends: without a controller, or with one that does or does not enforce, in any case
with the groups that a grouping makes. -/
inductive Initialized (config : Config) (devices : Devices M) : Devices M → Prop where
  | uncontrolled (absent : Directory.scanned (Board.configSpace devices.machine) = none) :
      Initialized config devices
        ⟨devices.machine,
          { devices.directory with
            controller := none
            groups := (setupGroups config devices).state.directory.groups
            enforcing := false }⟩
  | controlled (controller : Controller)
      (found : Directory.scanned (Board.configSpace devices.machine) = some controller)
      (enforcing : Bool)
      (latched : enforcing = true ↔ Enforces controller (switchedOn controller devices.machine)) :
      Initialized config devices
        ⟨switchedOn controller devices.machine,
          { controller := some controller
            groups := (setupGroups config devices).state.directory.groups
            enforcing := enforcing
            verificationFailed := !enforcing }⟩

theorem init_cases (config : Config) (devices : Devices M) :
    ∃ last log, init config devices = ⟨.ok last.directory.isolation, last, log⟩ ∧
      Initialized config devices last := by
  obtain ⟨log, hinit⟩ := init_eq config devices
  refine ⟨_, log, hinit, ?_⟩
  let grouped : Devices M := ⟨devices.machine, { devices.directory with
    controller := Directory.scanned (Board.configSpace devices.machine)
    groups := (setupGroups config devices).state.directory.groups }⟩
  have hgrouped : (setupGroups config (detect devices).state).state = grouped := by
    rw [state_setupGroups, state_detect]
    dsimp only [grouped]
    rw [state_setupGroups]
  have hcases := enable_cases grouped
  rw [hgrouped]
  generalize enable grouped = reply at hcases ⊢
  cases hcases with
  | uncontrolled absent =>
    have absent : Directory.scanned (Board.configSpace devices.machine) = none := absent
    dsimp only [grouped]
    rw [absent]
    exact .uncontrolled absent
  | enforced controller present latched =>
    have found : Directory.scanned (Board.configSpace devices.machine) = some controller := present
    dsimp only [grouped]
    rw [found]
    exact .controlled controller found true ⟨fun _ => latched, fun _ => rfl⟩
  | unverified controller present stuck =>
    have found : Directory.scanned (Board.configSpace devices.machine) = some controller := present
    dsimp only [grouped]
    rw [found]
    exact .controlled controller found false
      ⟨fun h => (Bool.false_ne_true h).elim, fun h => (stuck h).elim⟩

end Init

/-- Whatever the buses, the registers and their stuck bits are, and whatever was known before, the
set-up goes through and gives the isolation that the directory then reports. It is enforced exactly
where a controller is found and both enforcement bits are set in its register in the end, and the
status says which it is. The groups are those that a grouping makes in any case. Of the machine
nothing changes but those two bits of that register, and these only from clear to set. -/
theorem init_exact (config : Config) (devices : Devices SimMachine) :
    let found := (detect devices).outcome
    let reply := init config devices
    let directory := reply.state.directory
    let machine := reply.state.machine
    reply.outcome = .ok directory.isolation ∧
    (directory.isolation = .enforced ↔
      ∃ controller, found = .ok controller ∧
        machine.registerBit controller.controlRegister 0 = true ∧
        machine.registerBit controller.controlRegister 17 = true) ∧
    ((directory.status = .notDetected ↔ ∀ controller, found ≠ .ok controller) ∧
      (directory.status = .enforcing ↔ directory.isolation = .enforced) ∧
      (directory.status ≠ .notDetected → directory.isolation ≠ .enforced →
        directory.status = .verificationFailed)) ∧
    directory.groups = (setupGroups config devices).state.directory.groups ∧
    (∀ address i, machine.registerBit address i ≠ devices.machine.registerBit address i →
      (∃ controller, found = .ok controller ∧ address = controller.controlRegister) ∧
        (i = 0 ∨ i = 17) ∧ devices.machine.registerBit address i = false) ∧
    machine = { devices.machine with registers := machine.registers } := by
  intro found reply directory machine
  obtain ⟨last, log, hreply, hcases⟩ := init_cases config devices
  have hlast : reply.state = last := congrArg Reply.state hreply
  have houtcome : reply.outcome = .ok last.directory.isolation := congrArg Reply.outcome hreply
  have hfound (controller : Controller) : found = .ok controller ↔
      Directory.scanned devices.machine.configRead = some controller := outcome_detect_eq_ok_iff
  simp only [directory, machine, hlast, houtcome, hfound, ne_eq]
  cases hcases with
  | uncontrolled absent =>
    have absent : Directory.scanned devices.machine.configRead = none := absent
    refine ⟨trivial, ?_, ?_, rfl, fun address i changed => absurd rfl changed, rfl⟩
    · simp [absent, Directory.isolation]
    · simp [absent, Directory.isolation, Directory.status]
  | controlled controller present enforcing latched =>
    have present : Directory.scanned devices.machine.configRead = some controller := present
    rw [enforces_iff] at latched
    refine ⟨trivial, ?_, ?_, rfl, fun address i changed => ?_, rfl⟩
    · rw [Directory.isolation_eq_enforced, latched]
      constructor
      · exact fun set => ⟨controller, present, set⟩
      · rintro ⟨other, hother, set⟩
        cases present.symm.trans hother
        exact set
    · cases enforcing <;> simp [present, Directory.isolation, Directory.status]
    · obtain ⟨haddress, hbit, hclear⟩ :=
        of_registerBit_switchedOn_ne controller devices.machine changed
      exact ⟨⟨controller, present, haddress⟩, hbit, hclear⟩

end Devices
end CellVisor
