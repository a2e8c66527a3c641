import CellVisor.Iommu.Group
import CellVisor.Proofs.Action

/-!
# CellVisor.Proofs.Iommu.Members

The members and the owner of a group, whatever was done to it since it was made. A group knows
nothing of the requests that were made of it, so its members are compared with the history itself.

* `requested`, `lastOwner`: the devices that a history asks for, and the owner it sets last.
* `Added`: the three ways in which a request for a device ends.
* `Gathered`: what a history has made of a group; one operation keeps it (`gathered_act`), and so
  does a run (`gathered_run`).
* `members_exact`: the members are the first 16 different devices that were asked for.
-/

namespace CellVisor
namespace IommuGroup

/-- A change that a group is asked for. -/
inductive Operation
  | add (address : Pci.Address)
  | setOwner (owner : CellId)

namespace Operation

/-- What comes of it; what is refused changes nothing. -/
def act : Operation → Action IommuGroup Unit
  | add address => Action.ofStep fun group => group.add address
  | setOwner owner => Action.update fun group => group.setOwner owner

def requested? : Operation → Option Pci.Address
  | add address => some address
  | setOwner _ => none

def owner? : Operation → Option CellId
  | add _ => none
  | setOwner owner => some owner

end Operation

/-- The devices that are asked for, in the order of the requests and as often as they come. -/
def requested (operations : List Operation) : List Pci.Address :=
  operations.filterMap Operation.requested?

/-- The owner that is set last, or the first one where none is set. -/
def lastOwner (operations : List Operation) (first : CellId) : CellId :=
  (operations.filterMap Operation.owner?).getLast?.getD first

variable {start group : IommuGroup} {address : Pci.Address} {history : List Operation}

/-! ## One request -/

theorem add_of_mem (member : address ∈ group.devices) :
    (Operation.add address).act group = ⟨.ok (), group, []⟩ := by
  rw [Operation.act, Action.ofStep, add, if_pos (contains_iff.2 member)]

theorem add_of_room (new : address ∉ group.devices) (room : group.devices.length < maxDevices) :
    (Operation.add address).act group =
      ⟨.ok (), { group with devices := group.devices ++ [address] }, []⟩ := by
  rw [Operation.act, Action.ofStep, add, if_neg (mt contains_iff.1 new), if_pos room]

theorem add_of_full (new : address ∉ group.devices) (full : maxDevices ≤ group.devices.length) :
    (Operation.add address).act group = ⟨.error .resourceExhausted, group, []⟩ := by
  rw [Operation.act, Action.ofStep, add, if_neg (mt contains_iff.1 new), if_neg (Nat.not_lt.2 full)]

/-- How a request for a device ends. Whether it is a member is asked before whether there is
room. -/
inductive Added (address : Pci.Address) (group : IommuGroup) : Reply IommuGroup Unit → Prop where
  | known (member : address ∈ group.devices) : Added address group ⟨.ok (), group, []⟩
  | placed (new : address ∉ group.devices) (room : group.devices.length < maxDevices) :
      Added address group ⟨.ok (), { group with devices := group.devices ++ [address] }, []⟩
  | refused (new : address ∉ group.devices) (full : maxDevices ≤ group.devices.length) :
      Added address group ⟨.error .resourceExhausted, group, []⟩

theorem add_cases (address : Pci.Address) (group : IommuGroup) :
    Added address group ((Operation.add address).act group) := by
  by_cases member : address ∈ group.devices
  · rw [add_of_mem member]
    exact .known member
  · rcases Nat.lt_or_ge group.devices.length maxDevices with room | full
    · rw [add_of_room member room]
      exact .placed member room
    · rw [add_of_full member full]
      exact .refused member full

theorem returned_act (operation : Operation) (group : IommuGroup) :
    (operation.act group).Returned := by
  cases operation with
  | add address =>
    have hcases := add_cases address group
    generalize (Operation.add address).act group = reply at hcases ⊢
    cases hcases with
    | known | placed | refused => exact nofun
  | setOwner owner => exact nofun

/-! ## What a history makes of a group -/

theorem requested_concat (history : List Operation) (operation : Operation) :
    requested (history ++ [operation]) = requested history ++ operation.requested?.toList := by
  rw [requested, List.filterMap_append]
  cases operation with
  | add | setOwner => rfl

theorem lastOwner_concat (history : List Operation) (operation : Operation) (first : CellId) :
    lastOwner (history ++ [operation]) first = operation.owner?.getD (lastOwner history first) := by
  rw [lastOwner, List.filterMap_append]
  cases operation with
  | add address => exact congrArg (fun owners => owners.getLast?.getD first) (List.append_nil _)
  | setOwner owner => exact congrArg (Option.getD · first) List.getLast?_concat

/-- A device that comes once more makes no difference to the different ones. -/
theorem eraseDups_concat (addresses : List Pci.Address) (address : Pci.Address) :
    (addresses ++ [address]).eraseDups =
      if address ∈ addresses then addresses.eraseDups else addresses.eraseDups ++ [address] := by
  rw [List.eraseDups_append]
  split
  · rename_i hmem
    simp [List.removeAll, hmem]
  · rename_i hnew
    simp [List.removeAll, hnew, List.eraseDups_cons]

/-- What a group that started as `start` is after `history`. -/
structure Gathered (start : IommuGroup) (history : List Operation) (group : IommuGroup) : Prop where
  id : group.id = start.id
  owner : group.owner = lastOwner history start.owner
  devices : group.devices = (requested history).eraseDups.take maxDevices
  distinct : group.devices.Nodup

theorem gathered_start (empty : start.devices = []) : Gathered start [] start where
  id := rfl
  owner := rfl
  devices := empty
  distinct := by
    rw [empty]
    exact List.nodup_nil

/-- The members that a request for one more device makes. As long as there is room they are all the
devices that were asked for, and later on the first ones stay. -/
theorem Gathered.devices_added (h : Gathered start history group) {reply : Reply IommuGroup Unit}
    (added : Added address group reply) :
    reply.state.devices = (requested history ++ [address]).eraseDups.take maxDevices := by
  have hmem : address ∈ group.devices → address ∈ requested history := by
    rw [h.devices]
    exact fun hmem => List.mem_eraseDups.1 (List.mem_of_mem_take hmem)
  have hlength : group.devices.length = min maxDevices (requested history).eraseDups.length := by
    rw [h.devices, List.length_take]
  rw [eraseDups_concat]
  cases added with
  | known member =>
    rw [if_pos (hmem member)]
    exact h.devices
  | placed new room =>
    have hall : group.devices = (requested history).eraseDups := by
      rw [h.devices, List.take_of_length_le (by omega)]
    have hnew : address ∉ requested history := by
      rw [hall, List.mem_eraseDups] at new
      exact new
    have hfits : (group.devices ++ [address]).length ≤ maxDevices := by
      rw [List.length_append, List.length_singleton]
      exact room
    rw [if_neg hnew, ← hall, List.take_of_length_le hfits]
  | refused new full =>
    split
    · exact h.devices
    · rw [List.take_append_of_le_length (by omega)]
      exact h.devices

theorem Gathered.distinct_added (h : Gathered start history group) {reply : Reply IommuGroup Unit}
    (added : Added address group reply) : reply.state.devices.Nodup := by
  cases added with
  | known | refused => exact h.distinct
  | placed new =>
    rw [List.nodup_append]
    refine ⟨h.distinct, List.pairwise_singleton _ address, fun member hmember other hother => ?_⟩
    rw [List.mem_singleton.1 hother]
    exact fun hsame => new (hsame ▸ hmember)

theorem Gathered.added (h : Gathered start history group) {reply : Reply IommuGroup Unit}
    (added : Added address group reply) :
    Gathered start (history ++ [.add address]) reply.state where
  id := by
    cases added with
    | known | placed | refused => exact h.id
  owner := by
    rw [lastOwner_concat]
    cases added with
    | known | placed | refused => exact h.owner
  devices := by
    rw [requested_concat]
    exact h.devices_added added
  distinct := h.distinct_added added

theorem Gathered.handed (h : Gathered start history group) (owner : CellId) :
    Gathered start (history ++ [.setOwner owner]) (group.setOwner owner) where
  id := h.id
  owner := (lastOwner_concat history (.setOwner owner) start.owner).symm
  devices := by
    rw [requested_concat, Operation.requested?, Option.toList_none, List.append_nil]
    exact h.devices
  distinct := h.distinct

/-- One operation adds itself to the history. -/
theorem gathered_act (h : Gathered start history group) (operation : Operation) :
    Gathered start (history ++ [operation]) (operation.act group).state := by
  cases operation with
  | add address => exact h.added (add_cases address group)
  | setOwner owner => exact h.handed owner

theorem gathered_run (h : Gathered start history group) (operations : List Operation) :
    (Action.attemptEach Operation.act operations group).outcome = .ok () ∧
      Gathered start (history ++ operations)
        (Action.attemptEach Operation.act operations group).state := by
  induction operations generalizing history group with
  | nil =>
    rw [List.append_nil]
    exact ⟨rfl, h⟩
  | cons operation rest ih =>
    obtain ⟨hends, hrest⟩ := ih (gathered_act h operation)
    rw [Action.attemptEach_of_returned _ (returned_act operation group)]
    rw [List.append_assoc, List.singleton_append] at hrest
    exact ⟨hends, hrest⟩

/-- Whatever is asked of a new group, and in whatever order, its members are the first 16 different
devices that were asked for, in the order in which they were first asked for and each of them once,
and the test for members finds these. It keeps its number, and its owner is the one that was set
last. A request for a device succeeds exactly if the device is a member afterwards: a request for a
member changes nothing, even in a full group, a new device is put behind the others if there is
room, and it is refused without any change if the group is full. To set the owner changes the owner
alone. -/
theorem members_exact (id : UInt32) (owner : CellId) (operations : List Operation) :
    let reply := Action.attemptEach Operation.act operations ⟨id, owner, []⟩
    let group := reply.state
    reply.outcome = .ok () ∧
    (group.devices = (requested operations).eraseDups.take 16 ∧ group.devices.Nodup) ∧
    (∀ address, group.contains address = true ↔ address ∈ group.devices) ∧
    (group.id = id ∧ group.owner = lastOwner operations owner) ∧
    (∀ address,
      let call := (Operation.add address).act group
      (call.outcome = .ok () ↔ address ∈ call.state.devices) ∧
      (address ∈ group.devices → call = ⟨.ok (), group, []⟩) ∧
      (address ∉ group.devices → group.devices.length < 16 →
        call = ⟨.ok (), { group with devices := group.devices ++ [address] }, []⟩) ∧
      (address ∉ group.devices → group.devices.length = 16 →
        call = ⟨.error .resourceExhausted, group, []⟩)) ∧
    ∀ next, (Operation.setOwner next).act group = ⟨.ok (), { group with owner := next }, []⟩ := by
  intro reply group
  obtain ⟨hends, hgathered⟩ := gathered_run
    (gathered_start (rfl : (⟨id, owner, []⟩ : IommuGroup).devices = [])) operations
  refine ⟨hends, ⟨hgathered.devices, hgathered.distinct⟩, fun address => contains_iff,
    ⟨hgathered.id, hgathered.owner⟩,
    fun address => ⟨?succeeds, add_of_mem, add_of_room, fun new full => ?refused⟩, fun next => rfl⟩
  case succeeds =>
    have hcases := add_cases address group
    generalize (Operation.add address).act group = call at hcases ⊢
    cases hcases with
    | known member => exact iff_of_true rfl member
    | placed => exact iff_of_true rfl (List.mem_append_right _ List.mem_cons_self)
    | refused new => exact iff_of_false (fun h => nomatch h) new
  case refused => exact add_of_full new (Nat.le_of_eq full.symm)

end IommuGroup
end CellVisor
