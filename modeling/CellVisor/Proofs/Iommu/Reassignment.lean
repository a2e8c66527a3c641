import CellVisor.Proofs.Iommu.Controller
import CellVisor.Sim.Machine

/-!
# CellVisor.Proofs.Iommu.Reassignment

Devices change hands only while the cell that gives them away does not run.

* `grouped_of_boot`: a boot leaves each device that it has grouped in a group of its own.
* `Hypervisor.reassign_cases`: how a reassignment ends; `owner_of_reassigned`: whose device it is.
* `Hypervisor.directory_act`: nothing else that is asked of a hypervisor changes the directory.
* `moved_while_idle`: so it is for everything that can be reached from a boot, on every board.
-/

namespace CellVisor
namespace Hypervisor

variable {M : Type}

/-! ## The end of a boot -/

section Boot

variable [Board M] {config : Config} {start : M} {hypervisor : Hypervisor M}

theorem completes_bootDevices_grouped (config : Config) :
    Action.Completes (fun _ : M => True) (bootDevices config) fun found _ =>
      ∃ addresses, Directory.Grouped found.1.groups addresses := by
  unfold bootDevices
  refine Action.Completes.around (S := fun _ => True)
    (R := fun found _ => ∃ addresses, Directory.Grouped found.1.groups addresses) ?_
    (fun _ _ => trivial) (fun _ _ h => h)
  refine Action.Completes.bind
    (Q := fun _ devices => ∃ addresses, Directory.Grouped devices.directory.groups addresses)
    (fun devices _ => ?_) fun isolation devices h => ⟨_, devices, [], rfl, h⟩
  have hgrouped := Devices.grouped_init config devices
  obtain ⟨log, hinit⟩ := Devices.init_eq config devices
  rw [hinit] at hgrouped
  exact ⟨_, _, log, hinit, hgrouped⟩

theorem devices_of_boot (h : (boot config start).outcome = .ok hypervisor) :
    ∃ (before after : M) (log : List Notice), bootDevices config before =
      ⟨.ok (hypervisor.directory, hypervisor.isolation), after, log⟩ := by
  unfold boot at h
  rw [Action.note_bind, Reply.outcome_after] at h
  obtain ⟨checked, validated, -, -, h, -⟩ := Action.ok_of_bind h
  obtain ⟨machine, read, -, -, h, -⟩ := Action.ok_of_bind h
  obtain ⟨topology, probed, -, -, h, -⟩ := Action.ok_of_bind h
  obtain ⟨features, featured, -, -, h, -⟩ := Action.ok_of_bind h
  dsimp only at h
  rw [Action.note_bind, Reply.outcome_after] at h
  obtain ⟨⟨directory, isolation⟩, after, log, hdevices, h, -⟩ := Action.ok_of_bind h
  obtain ⟨cells, started, -, -, h, -⟩ := Action.ok_of_bind h
  cases h
  exact ⟨featured, after, log, hdevices⟩

/-- A boot leaves each device that it has grouped in a group of its own. -/
theorem grouped_of_boot (h : (boot config start).outcome = .ok hypervisor) :
    ∃ addresses, Directory.Grouped hypervisor.directory.groups addresses := by
  obtain ⟨before, after, log, hdevices⟩ := devices_of_boot h
  exact (completes_bootDevices_grouped config).of_eq trivial hdevices

end Boot

/-! ## Reassignment -/

/-- The device at `address` has gone to `target`, and with it no other device. -/
structure Moved (address : Pci.Address) (target : CellId) (before after : Hypervisor M) :
    Prop where
  owner : ∀ other, after.deviceOwner other =
    if other = address then some target else before.deviceOwner other
  groups : after.directory.groups = Directory.given address target before.directory.groups
  ids : after.directory.groups.map IommuGroup.id = before.directory.groups.map IommuGroup.id
  devices : after.directory.groups.map IommuGroup.devices =
    before.directory.groups.map IommuGroup.devices
  rest : after = { before with
    directory := { before.directory with groups := after.directory.groups } }

/-- How a reassignment ends. -/
inductive Reassigned (address : Pci.Address) (target : CellId) (hypervisor : Hypervisor M) :
    Reply (Hypervisor M) Unit → Prop where
  | ungrouped (unowned : hypervisor.deviceOwner address = none) :
      Reassigned address target hypervisor
        ⟨.error (.config .deviceInNoGroup), hypervisor, []⟩
  | kept (owned : hypervisor.deviceOwner address = some target) :
      Reassigned address target hypervisor ⟨.ok (), hypervisor, []⟩
  | refused (owner : CellId) (owned : hypervisor.deviceOwner address = some owner)
      (foreign : owner ≠ target) (running : hypervisor.cells.state owner = .running) :
      Reassigned address target hypervisor
        ⟨.error .invalidState, hypervisor, [.reassignmentRefused address owner]⟩
  | moved (group : IommuGroup) (found : hypervisor.directory.groupOf address = some group)
      (foreign : group.owner ≠ target) (idle : hypervisor.cells.state group.owner ≠ .running)
      {after : Hypervisor M} (moved : Moved address target hypervisor after) :
      Reassigned address target hypervisor
        ⟨.ok (), after, [.groupMoved group.id group.owner target]⟩

section Reassign

variable {hypervisor : Hypervisor M} {addresses : List Pci.Address} {address : Pci.Address}
  {target : CellId}

theorem deviceOwner_of_groupOf {group : IommuGroup}
    (found : hypervisor.directory.groupOf address = some group) :
    hypervisor.deviceOwner address = some group.owner := by
  rw [deviceOwner, Directory.ownerOf, found, Option.map_some]

theorem moved_of_reown (h : Directory.Grouped hypervisor.directory.groups addresses)
    {owner : CellId} (owned : hypervisor.deviceOwner address = some owner) (target : CellId) :
    Moved address target hypervisor { hypervisor with
      directory := { hypervisor.directory with
        groups := Directory.reown address target hypervisor.directory.groups } } where
  owner := by
    rw [Directory.reown_eq_given h]
    exact h.ownerOf_given owned target
  groups := Directory.reown_eq_given h address target
  ids := Directory.map_reown (fun _ => rfl) address _
  devices := Directory.map_reown (fun _ => rfl) address _
  rest := rfl

theorem reassign_cases (h : Directory.Grouped hypervisor.directory.groups addresses)
    (address : Pci.Address) (target : CellId) :
    Reassigned address target hypervisor (reassign address target hypervisor) := by
  unfold reassign
  rw [Action.bind_of_ok (Action.get_apply hypervisor), Reply.after_nil]
  cases howner : hypervisor.deviceOwner address with
  | none => exact .ungrouped howner
  | some owner =>
    dsimp only
    split
    · rename_i hforeign
      split
      · rename_i hrunning
        exact .refused owner howner hforeign hrunning
      · rename_i hidle
        have hcases := Directory.assign_cases address target hypervisor.directory
        unfold onDirectory Action.zoom
        generalize Directory.assign address target hypervisor.directory = reply at hcases ⊢
        cases hcases with
        | ungrouped unowned => cases unowned.symm.trans howner
        | kept owned =>
          cases owned.symm.trans howner
          exact absurd rfl hforeign
        | moved group found =>
          cases (deviceOwner_of_groupOf found).symm.trans howner
          exact .moved group found hforeign hidle (moved_of_reown h howner target)
    · rename_i hsame
      cases Decidable.not_not.1 hsame
      exact .kept howner

/-- What a reassignment changes the owner of is the device it names, which the cell that had it
gives away while it does not run. -/
theorem owner_of_reassigned {other : Pci.Address} {reply : Reply (Hypervisor M) Unit}
    (h : Reassigned address target hypervisor reply)
    (changed : reply.state.deviceOwner other ≠ hypervisor.deviceOwner other) :
    other = address ∧ ∃ owner, hypervisor.deviceOwner address = some owner ∧ owner ≠ target ∧
      hypervisor.cells.state owner ≠ .running ∧
      reply.state.deviceOwner address = some target := by
  cases h with
  | ungrouped | kept | refused => exact absurd rfl changed
  | moved group found foreign idle moved =>
    dsimp only at changed ⊢
    rw [moved.owner] at changed ⊢
    split at changed
    · rename_i hsame
      exact ⟨hsame, group.owner, deviceOwner_of_groupOf found, foreign, idle, if_pos rfl⟩
    · exact absurd rfl changed

/-- A device of no group, and an address that no device can have, do not belong to linux. -/
theorem isLinuxDevice_eq (h : Directory.Grouped hypervisor.directory.groups addresses)
    (bus device function : UInt8) :
    hypervisor.isLinuxDevice bus device function =
      decide (hypervisor.deviceOwner ⟨bus, device, function⟩ = some .linux) := by
  unfold isLinuxDevice
  dsimp only
  cases hvalid : Pci.Address.isValid ⟨bus, device, function⟩ with
  | true => exact Bool.true_and _
  | false =>
    rw [Bool.false_and, eq_comm, decide_eq_false_iff_not]
    intro owned
    rw [h.valid _ (h.mem_of_ownerOf owned)] at hvalid
    cases hvalid

end Reassign

/-! ## Whole runs -/

/-- What is asked of a hypervisor on any board, or done to its machine from outside. -/
inductive Request (M : Type)
  | switch
  | handle (event : Event)
  | reassign (address : Pci.Address) (target : CellId)
  | allocate (size : UInt64)
  | disturb (change : M → M)

section Runs

variable [Board M]

def Request.act : Request M → Action (Hypervisor M) Unit
  | switch => Hypervisor.switch.discard
  | handle event => Hypervisor.handle event
  | reassign address target => Hypervisor.reassign address target
  | allocate size => (Hypervisor.allocate size).discard
  | disturb change => onShared (SharedHost.onHost (Host.onMachine (Action.update change)))

/-- Only a reassignment has to do with the devices. -/
theorem directory_act (request : Request M) (hypervisor : Hypervisor M)
    (other : ∀ address target, request ≠ .reassign address target) :
    (request.act hypervisor).state.directory = hypervisor.directory := by
  cases request with
  | reassign address target => exact absurd rfl (other address target)
  | switch =>
    rw [Request.act, Action.state_discard]
    rfl
  | handle event =>
    cases event
    show ((switch (M := M)).discard hypervisor).state.directory = hypervisor.directory
    rw [Action.state_discard]
    rfl
  | allocate size =>
    rw [Request.act, Action.state_discard]
    rfl
  | disturb change => rfl

theorem grouped_act {addresses : List Pci.Address} (request : Request M)
    {hypervisor : Hypervisor M} (h : Directory.Grouped hypervisor.directory.groups addresses) :
    Directory.Grouped (request.act hypervisor).state.directory.groups addresses := by
  cases request with
  | reassign address target =>
    have hcases := reassign_cases h address target
    rw [Request.act]
    generalize reassign address target hypervisor = reply at hcases ⊢
    cases hcases with
    | ungrouped | kept | refused => exact h
    | moved _ _ _ _ moved => exact ⟨moved.devices.trans h.devices, h.distinct, h.valid⟩
  | switch | handle | allocate | disturb =>
    rw [directory_act _ hypervisor (by rintro _ _ ⟨⟩)]
    exact h

/-- A device never leaves a cell that runs. In whatever is reached from a boot, on any board and
whatever becomes of it, a reassignment is refused for a device of no group, does nothing for a
device of the target, is refused for a device of a cell that runs, and gives away the device and
nothing else otherwise. Nothing else that is asked of the hypervisor touches the devices, so
wherever the owner of a device changes, it was given away by a cell that did not run. -/
theorem moved_while_idle {config : Config} {machine : M} {start hypervisor : Hypervisor M}
    (booted : (boot config machine).outcome = .ok start)
    (reachable : Action.Reachable Request.act start hypervisor) :
    (∀ address target,
      Reassigned address target hypervisor (reassign address target hypervisor)) ∧
    (∀ request : Request M, (∀ address target, request ≠ .reassign address target) →
      (request.act hypervisor).state.directory = hypervisor.directory) ∧
    (∀ (request : Request M) (address : Pci.Address),
      (request.act hypervisor).state.deviceOwner address ≠ hypervisor.deviceOwner address →
        ∃ target, request = .reassign address target ∧
          ∃ owner, hypervisor.deviceOwner address = some owner ∧ owner ≠ target ∧
            hypervisor.cells.state owner ≠ .running ∧
            (request.act hypervisor).state.deviceOwner address = some target) ∧
    ∀ bus device function, hypervisor.isLinuxDevice bus device function =
      decide (hypervisor.deviceOwner ⟨bus, device, function⟩ = some .linux) := by
  obtain ⟨addresses, hstart⟩ := grouped_of_boot booted
  have hgrouped : Directory.Grouped hypervisor.directory.groups addresses :=
    reachable.kept (P := fun hypervisor : Hypervisor M =>
      Directory.Grouped hypervisor.directory.groups addresses)
      (fun request _ _ h => grouped_act request h) hstart
  refine ⟨reassign_cases hgrouped, fun request => directory_act request hypervisor,
    fun request address changed => ?_, isLinuxDevice_eq hgrouped⟩
  cases request with
  | reassign named target =>
    obtain ⟨rfl, owner, hmoved⟩ :=
      owner_of_reassigned (reassign_cases hgrouped named target) changed
    exact ⟨target, rfl, owner, hmoved⟩
  | switch | handle | allocate | disturb =>
    refine absurd ?_ changed
    rw [deviceOwner, directory_act _ hypervisor (by rintro _ _ ⟨⟩)]
    rfl

end Runs

end Hypervisor

/-- A machine of four cores with a graphics card of each of two vendors. -/
def SimMachine.graphics : SimMachine :=
  ((SimMachine.ofCores 4).addDevice ⟨0, 1, 0⟩ (.ofIdentity Config.vendorAmd 0x73BF 0x03)).addDevice
    ⟨0, 2, 0⟩ (.ofIdentity Config.vendorNvidia 0x2204 0x03)

namespace Hypervisor

/-- Linux hibernates after a switch, so its card can be given to windows. -/
theorem moved_while_idle_graphics :
    ∃ start hypervisor, (boot .compact SimMachine.graphics).outcome = .ok start ∧
      Action.Reachable Request.act start hypervisor ∧
      hypervisor.deviceOwner ⟨0, 1, 0⟩ = some .linux ∧ hypervisor.activeCell = .windows ∧
      Reassigned ⟨0, 1, 0⟩ .windows hypervisor (reassign ⟨0, 1, 0⟩ .windows hypervisor) := by
  have hruns : (match (boot .compact SimMachine.graphics).outcome with
      | .ok start =>
        let reply := Action.attemptEach Request.act [.switch] start
        decide (reply.outcome = .ok () ∧ reply.state.deviceOwner ⟨0, 1, 0⟩ = some .linux ∧
          reply.state.activeCell = .windows)
      | _ => false) = true := by
    decide +kernel
  cases booted : (boot .compact SimMachine.graphics).outcome with
  | ok start =>
    rw [booted] at hruns
    obtain ⟨hcompleted, howner, hactive⟩ := of_decide_eq_true hruns
    have hreachable := Action.reachable_of_attemptEach hcompleted
    exact ⟨start, _, rfl, hreachable, howner, hactive,
      (moved_while_idle booted hreachable).1 ⟨0, 1, 0⟩ .windows⟩
  | error | fault =>
    rw [booted] at hruns
    cases hruns

end Hypervisor
end CellVisor
