import CellVisor.Proofs.Iommu.Grouping
import CellVisor.Proofs.Iommu.Isolation
import CellVisor.Proofs.Iommu.Reassignment

/-!
# CellVisor.Proofs.Iommu.Ownership

Whose a device is, whatever was assigned since the groups were set up, and whatever was detected,
enforced or done to the machine in between.

* `Directory.assign_eq`: an assignment gives away the group of its device, if there is one.
* `Directory.Grouped.ownerOf_assign`: the device changes hands, and no other does.
* `Directory.Grouped.assign_comm`: assignments of different devices can be made in any order.
* `Directory.Passed`: devices that were assigned are with the cells that they were assigned to, the
  others where they were, and all of them in their groups.
* `Devices.passed_run`: the last assignment of each device counts.
* `Devices.ownerOf_history`: so the owner of a device is the cell that it was last assigned to, or
  else the cell of its vendor.
-/

namespace CellVisor
namespace Directory

variable {directory : Directory} {addresses : List Pci.Address} {address other : Pci.Address}
  {owner : CellId}

/-- A group has the device at `address`. -/
def IsMember (directory : Directory) (address : Pci.Address) : Prop :=
  ∃ group ∈ directory.groups, group.contains address = true

theorem isMember_iff : directory.IsMember address ↔ (directory.groupOf address).isSome = true :=
  List.find?_isSome.symm

theorem isSome_ownerOf : (directory.ownerOf address).isSome = (directory.groupOf address).isSome :=
  Option.isSome_map

theorem groupOf_of_not_isMember (h : ¬ directory.IsMember address) :
    directory.groupOf address = none := by
  rw [isMember_iff, Bool.not_eq_true] at h
  exact Option.isNone_iff_eq_none.1 (by rw [← Option.not_isSome, h]; rfl)

theorem ownerOf_of_not_isMember (h : ¬ directory.IsMember address) :
    directory.ownerOf address = none := by
  rw [ownerOf, groupOf_of_not_isMember h, Option.map_none]

theorem exists_ownerOf_of_isMember (h : directory.IsMember address) :
    ∃ owner, directory.ownerOf address = some owner := by
  rw [isMember_iff, ← isSome_ownerOf] at h
  exact Option.isSome_iff_exists.1 h

/-! ## One assignment -/

/-- Where the group of the device belongs to the owner already, or there is none, nothing has to be
changed. -/
theorem reown_eq_self (h : ∀ group, directory.groupOf address = some group → group.owner = owner) :
    reown address owner directory.groups = directory.groups := by
  unfold groupOf at h
  revert h
  induction directory.groups with
  | nil => exact fun _ => rfl
  | cons group rest ih =>
    intro h
    rw [List.find?_cons] at h
    unfold reown
    split
    · rename_i hmem
      rw [hmem] at h
      rw [IommuGroup.setOwner, ← h group rfl]
    · rename_i hmem
      rw [Bool.not_eq_true] at hmem
      rw [hmem] at h
      rw [ih h]

/-- What is said of a group that changes hands. -/
def moveNotices (owner : CellId) : Option IommuGroup → List Notice
  | some group => if group.owner ≠ owner then [.groupMoved group.id group.owner owner] else []
  | none => []

/-- An assignment gives away the group of its device. It fails if there is none. -/
theorem assign_eq (address : Pci.Address) (owner : CellId) (directory : Directory) :
    assign address owner directory =
      ⟨if (directory.groupOf address).isSome then .ok () else .error (.config .deviceInNoGroup),
        { directory with groups := reown address owner directory.groups },
        moveNotices owner (directory.groupOf address)⟩ := by
  have hcases := assign_cases address owner directory
  generalize assign address owner directory = reply at hcases ⊢
  cases hcases with
  | ungrouped unowned =>
    have hnone : directory.groupOf address = none := Option.map_eq_none_iff.1 unowned
    have hkept : reown address owner directory.groups = directory.groups :=
      reown_eq_self fun group hgroup => by
        rw [hnone] at hgroup
        cases hgroup
    rw [hkept, hnone]
    rfl
  | kept owned =>
    obtain ⟨group, hgroup, howner⟩ := Option.map_eq_some_iff.1 owned
    have hkept : reown address owner directory.groups = directory.groups :=
      reown_eq_self fun found hfound => by
        rw [hgroup] at hfound
        cases hfound
        exact howner
    rw [hkept, hgroup, moveNotices, if_neg (not_not_intro howner)]
    rfl
  | moved group found foreign =>
    rw [found, moveNotices, if_pos foreign]
    rfl

theorem returned_assign (address : Pci.Address) (owner : CellId) (directory : Directory) :
    (assign address owner directory).Returned := by
  rw [assign_eq]
  unfold Reply.Returned
  split <;> exact nofun

theorem assign_of_not_isMember (h : ¬ directory.IsMember address) (owner : CellId) :
    assign address owner directory = ⟨.error (.config .deviceInNoGroup), directory, []⟩ := by
  have hcases := assign_cases address owner directory
  generalize assign address owner directory = reply at hcases ⊢
  cases hcases with
  | ungrouped => rfl
  | kept owned => cases (ownerOf_of_not_isMember h).symm.trans owned
  | moved group found => cases (groupOf_of_not_isMember h).symm.trans found

theorem outcome_assign_of_isMember (h : directory.IsMember address) (owner : CellId) :
    (assign address owner directory).outcome = .ok () := by
  rw [assign_eq]
  exact if_pos (isMember_iff.1 h)

theorem Grouped.of_devices {groups others : List IommuGroup} (h : Grouped groups addresses)
    (same : others.map IommuGroup.devices = groups.map IommuGroup.devices) :
    Grouped others addresses :=
  ⟨same.trans h.devices, h.distinct, h.valid⟩

theorem Grouped.assign (h : Grouped directory.groups addresses) (address : Pci.Address)
    (owner : CellId) : Grouped (assign address owner directory).state.groups addresses := by
  rw [assign_eq]
  exact h.of_devices (map_reown (fun _ => rfl) address _)

/-- The device has its new owner, if it is in a group, and every other device the one that it
had. -/
theorem Grouped.ownerOf_assign (h : Grouped directory.groups addresses) (address : Pci.Address)
    (owner : CellId) (other : Pci.Address) :
    (Directory.assign address owner directory).state.ownerOf other =
      if other = address then (directory.ownerOf address).map fun _ => owner
      else directory.ownerOf other := by
  cases howner : directory.ownerOf address with
  | none =>
    have hnot : ¬ directory.IsMember address := by
      rw [isMember_iff, ← isSome_ownerOf, howner]
      exact Bool.false_ne_true
    rw [assign_of_not_isMember hnot]
    split
    · rename_i hother
      rw [hother, howner, Option.map_none]
    · rfl
  | some previous =>
    rw [assign_eq, reown_eq_given h]
    exact h.ownerOf_given howner owner other

/-! ## Two assignments -/

theorem Grouped.given_comm {groups : List IommuGroup} (h : Grouped groups addresses)
    (different : address ≠ other) (owner next : CellId) :
    given other next (given address owner groups) =
      given address owner (given other next groups) := by
  unfold given
  rw [List.map_map, List.map_map]
  refine List.map_congr_left fun group hgroup => ?_
  -- a group has one device, so at most one of the two changes it
  obtain ⟨device, -, hsingle⟩ := h.single hgroup
  have hsetOwner (cell : CellId) (device : Pci.Address) :
      (group.setOwner cell).contains device = group.contains device := rfl
  by_cases hfirst : group.contains address = true
  · have hsecond : ¬ group.contains other = true := by
      rw [hsingle] at hfirst ⊢
      exact fun hother => different (hfirst.trans hother.symm)
    simp only [Function.comp_apply, if_pos hfirst, if_neg hsecond, hsetOwner]
  · simp only [Function.comp_apply, if_neg hfirst]
    split
    · rw [hsetOwner, if_neg hfirst]
    · rfl

theorem Grouped.assign_assign (h : Grouped directory.groups addresses)
    (different : address ≠ other) (owner next : CellId) :
    Directory.assign other next (Directory.assign address owner directory).state =
      ⟨(Directory.assign other next directory).outcome,
        { directory with groups := given other next (given address owner directory.groups) },
        (Directory.assign other next directory).log⟩ := by
  have hstate : (Directory.assign address owner directory).state =
      { directory with groups := given address owner directory.groups } := by
    rw [assign_eq, reown_eq_given h]
  have hafter := h.assign address owner
  rw [hstate] at hafter ⊢
  rw [assign_eq other next, h.groupOf_given_of_ne different.symm, reown_eq_given hafter,
    assign_eq other next directory]

/-- Assignments of different devices can be made in any order: each ends as it does alone, and
together they leave the same directory. -/
theorem Grouped.assign_comm (h : Grouped directory.groups addresses) (different : address ≠ other)
    (owner next : CellId) :
    ∃ last,
      Directory.assign other next (Directory.assign address owner directory).state =
        ⟨(Directory.assign other next directory).outcome, last,
          (Directory.assign other next directory).log⟩ ∧
      Directory.assign address owner (Directory.assign other next directory).state =
        ⟨(Directory.assign address owner directory).outcome, last,
          (Directory.assign address owner directory).log⟩ := by
  refine ⟨_, h.assign_assign different owner next, ?_⟩
  rw [h.assign_assign different.symm, h.given_comm different]

/-! ## Any number of assignments -/

/-- The devices are in their groups as before. Those with a target have gone to it, if they are in
a group at all. -/
structure Passed (target : Pci.Address → Option CellId) (before after : Directory) : Prop where
  owner : ∀ address, after.ownerOf address =
    (before.ownerOf address).map fun owner => (target address).getD owner
  ids : after.groups.map IommuGroup.id = before.groups.map IommuGroup.id
  devices : after.groups.map IommuGroup.devices = before.groups.map IommuGroup.devices

theorem passed_of_groups {before after : Directory} (h : after.groups = before.groups) :
    Passed (fun _ => none) before after where
  owner address := by
    rw [ownerOf, ownerOf, groupOf, groupOf, h, Option.map_map]
    rfl
  ids := by rw [h]
  devices := by rw [h]

theorem Grouped.passed_assign (h : Grouped directory.groups addresses) (address : Pci.Address)
    (owner : CellId) :
    Passed (fun device => if device = address then some owner else none) directory
      (Directory.assign address owner directory).state where
  owner device := by
    rw [h.ownerOf_assign]
    split
    · rename_i hdevice
      rw [hdevice]
      rfl
    · simp
  ids := by
    rw [assign_eq]
    exact map_reown (fun _ => rfl) address _
  devices := by
    rw [assign_eq]
    exact map_reown (fun _ => rfl) address _

/-- What comes later counts. -/
theorem Passed.trans {first second : Pci.Address → Option CellId} {before middle after : Directory}
    (hfirst : Passed first before middle) (hsecond : Passed second middle after) :
    Passed (fun address => (second address).or (first address)) before after where
  owner address := by
    rw [hsecond.owner, hfirst.owner, Option.map_map]
    congr 1
    funext owner
    cases second address <;> rfl
  ids := hsecond.ids.trans hfirst.ids
  devices := hsecond.devices.trans hfirst.devices

theorem Passed.isMember_iff {target : Pci.Address → Option CellId} {before after : Directory}
    (h : Passed target before after) (address : Pci.Address) :
    after.IsMember address ↔ before.IsMember address := by
  rw [Directory.isMember_iff, Directory.isMember_iff, ← isSome_ownerOf, ← isSome_ownerOf, h.owner,
    Option.isSome_map]

end Directory

namespace Devices

variable {M : Type}

/-- Whether an operation sets the groups up anew. -/
def Operation.regroups : Operation M → Bool
  | setupGroups _ | init _ => true
  | detect | enable | assign _ _ | disturb _ => false

/-- The cell that an operation assigns the device at `address` to. -/
def Operation.target? (address : Pci.Address) : Operation M → Option CellId
  | assign device owner => if address = device then some owner else none
  | detect | setupGroups _ | enable | init _ | disturb _ => none

/-- The cell that the device at `address` is assigned to last. -/
def lastTarget (operations : List (Operation M)) (address : Pci.Address) : Option CellId :=
  (operations.filterMap (Operation.target? address)).getLast?

theorem lastTarget_cons (operation : Operation M) (rest : List (Operation M))
    (address : Pci.Address) :
    lastTarget (operation :: rest) address =
      (lastTarget rest address).or (operation.target? address) := by
  unfold lastTarget
  cases htarget : operation.target? address with
  | none => rw [List.filterMap_cons_none htarget, Option.or_none]
  | some owner =>
    rw [List.filterMap_cons_some htarget, List.getLast?_cons]
    cases (rest.filterMap (Operation.target? address)).getLast? <;> rfl

variable [Board M] {addresses : List Pci.Address} {devices : Devices M}

/-- What one operation makes of the owners, unless it sets the groups up anew. -/
theorem passed_act {operation : Operation M} (kept : operation.regroups = false)
    (h : Directory.Grouped devices.directory.groups addresses) :
    (operation.act devices).Returned ∧
      Directory.Passed operation.target? devices.directory
        (operation.act devices).state.directory := by
  cases operation with
  | setupGroups | init => cases kept
  | detect =>
    have hreturns : (detect devices).Returned := by
      rw [detect_apply]
      exact (Directory.returns_detect _ devices.directory trivial).1
    refine ⟨Action.returned_discard hreturns, ?_⟩
    rw [Operation.act, Action.state_discard, state_detect]
    exact Directory.passed_of_groups rfl
  | enable =>
    exact ⟨(returns_enable (P := fun _ => True) (fun _ _ _ h => h) devices trivial).1,
      Directory.passed_of_groups (groups_enable devices)⟩
  | assign address owner =>
    exact ⟨fun fault => Directory.returned_assign address owner devices.directory fault,
      h.passed_assign address owner⟩
  | disturb =>
    refine ⟨fun fault h => ?_, Directory.passed_of_groups rfl⟩
    cases h

/-- A run without a new set-up comes to its end, and the last assignment of each device counts. -/
theorem passed_run {operations : List (Operation M)}
    (kept : ∀ operation ∈ operations, operation.regroups = false)
    (h : Directory.Grouped devices.directory.groups addresses) :
    (Action.attemptEach Operation.act operations devices).outcome = .ok () ∧
      Directory.Passed (lastTarget operations) devices.directory
        (Action.attemptEach Operation.act operations devices).state.directory := by
  induction operations generalizing devices with
  | nil => exact ⟨rfl, Directory.passed_of_groups rfl⟩
  | cons operation rest ih =>
    obtain ⟨hfirst, hrest⟩ := List.forall_mem_cons.1 kept
    obtain ⟨returned, hpassed⟩ := passed_act hfirst h
    obtain ⟨hends, hlater⟩ := ih hrest (h.of_devices hpassed.devices)
    rw [Action.attemptEach_of_returned _ returned]
    refine ⟨hends, ?_⟩
    have hboth := hpassed.trans hlater
    simp only [← lastTarget_cons] at hboth
    exact hboth

theorem grouped_setupGroups (config : Config) (devices : Devices M) :
    ∃ addresses,
      Directory.Grouped (setupGroups config devices).state.directory.groups addresses := by
  rw [state_setupGroups]
  exact ⟨_, Directory.grouped_setupGroups _ config.ownerForVendor⟩

/-- After a set-up the owner of a device is the cell of its vendor. -/
theorem vendor_of_setupGroups (config : Config) (devices : Devices M) {address : Pci.Address}
    {owner : CellId}
    (owned : (setupGroups config devices).state.directory.ownerOf address = some owner) :
    ∃ identity, (address, identity) ∈ (Board.configSpace devices.machine).functions ∧
      identity.isDisplay = true ∧ config.ownerForVendor identity.vendor = some owner := by
  rw [state_setupGroups, Directory.ownerOf_groupEach] at owned
  obtain ⟨earlier, later, hentries, -⟩ := List.lookup_eq_some_iff.1 owned
  refine Directory.mem_passedThrough.1 (List.mem_of_mem_take (i := Directory.maxGroups) ?_)
  rw [hentries]
  exact List.mem_append_right _ List.mem_cons_self

/-- However devices are assigned after the groups were set up, with detections, attempts to enforce
and changes of the machine in between, a device in a group belongs to the cell that it was last
assigned to, or else to the cell of its vendor, and a device in no group belongs to none. The groups
and their members stay. To assign a device in no group is an error without effect, and to assign
another makes no difference to the owner of any other device, nor does the order in which two are
assigned. -/
theorem ownerOf_history (config : Config) (devices : Devices M) (operations : List (Operation M))
    (kept : ∀ operation ∈ operations, operation.regroups = false) :
    let start := (setupGroups config devices).state
    let reply := Action.attemptEach Operation.act operations start
    let before := start.directory
    let after := reply.state.directory
    reply.outcome = .ok () ∧
    (∀ address, ¬ before.IsMember address → after.ownerOf address = none) ∧
    (∀ address owner, before.IsMember address → lastTarget operations address = some owner →
      after.ownerOf address = some owner) ∧
    (∀ address, before.IsMember address → lastTarget operations address = none →
      ∃ identity owner, (address, identity) ∈ (Board.configSpace devices.machine).functions ∧
        config.ownerForVendor identity.vendor = some owner ∧
        after.ownerOf address = some owner) ∧
    (after.groups.map IommuGroup.id = before.groups.map IommuGroup.id ∧
      after.groups.map IommuGroup.devices = before.groups.map IommuGroup.devices ∧
      after.groups.length = before.groups.length) ∧
    (∀ address owner,
      (before.IsMember address → (Directory.assign address owner after).outcome = .ok ()) ∧
      (¬ before.IsMember address → Directory.assign address owner after =
        ⟨.error (.config .deviceInNoGroup), after, []⟩) ∧
      ∀ other, other ≠ address →
        (Directory.assign address owner after).state.ownerOf other = after.ownerOf other) ∧
    ∀ address other owner next, address ≠ other →
      ∃ last,
        Directory.assign other next (Directory.assign address owner after).state =
          ⟨(Directory.assign other next after).outcome, last,
            (Directory.assign other next after).log⟩ ∧
        Directory.assign address owner (Directory.assign other next after).state =
          ⟨(Directory.assign address owner after).outcome, last,
            (Directory.assign address owner after).log⟩ := by
  intro start reply before after
  obtain ⟨addresses, hgrouped⟩ := grouped_setupGroups config devices
  obtain ⟨hends, hpassed⟩ := passed_run kept hgrouped
  have hlast : Directory.Passed (lastTarget operations) before after := hpassed
  have hafter : Directory.Grouped after.groups addresses := hgrouped.of_devices hlast.devices
  refine ⟨hends, fun address outside => ?outside, fun address owner inside assigned => ?assigned,
    fun address inside unassigned => ?vendor, ⟨hlast.ids, hlast.devices, ?number⟩,
    fun address owner => ⟨fun inside => ?accepted, fun outside => ?refused,
      fun other different => ?untouched⟩,
    fun address other owner next different => hafter.assign_comm different owner next⟩
  case outside =>
    rw [hlast.owner, Directory.ownerOf_of_not_isMember outside, Option.map_none]
  case assigned =>
    obtain ⟨first, hfirst⟩ := Directory.exists_ownerOf_of_isMember inside
    rw [hlast.owner, hfirst, assigned]
    rfl
  case vendor =>
    obtain ⟨first, hfirst⟩ := Directory.exists_ownerOf_of_isMember inside
    obtain ⟨identity, hmem, -, hvendor⟩ := vendor_of_setupGroups config devices hfirst
    refine ⟨identity, first, hmem, hvendor, ?_⟩
    rw [hlast.owner, hfirst, unassigned]
    rfl
  case number =>
    have hlength := congrArg List.length hlast.ids
    rwa [List.length_map, List.length_map] at hlength
  case accepted =>
    exact Directory.outcome_assign_of_isMember ((hlast.isMember_iff address).2 inside) owner
  case refused =>
    exact Directory.assign_of_not_isMember (mt (hlast.isMember_iff address).1 outside) owner
  case untouched =>
    rw [hafter.ownerOf_assign, if_neg different]

/-- A card is assigned there and back while the other one vanishes from its bus, and a device that
nobody knows is assigned as well. -/
theorem ownerOf_history_graphics :
    let operations : List (Operation SimMachine) :=
      [.assign ⟨0, 1, 0⟩ .windows, .detect, .assign ⟨9, 0, 0⟩ .windows,
        .disturb (SimMachine.configWrite ⟨0, 2, 0⟩ 0 0xFFFFFFFF), .enable,
        .assign ⟨0, 1, 0⟩ .linux]
    let start := (setupGroups .compact (⟨.graphics, {}⟩ : Devices SimMachine)).state
    let after := (Action.attemptEach Operation.act operations start).state.directory
    (∀ operation ∈ operations, operation.regroups = false) ∧
      start.directory.IsMember ⟨0, 1, 0⟩ ∧ lastTarget operations ⟨0, 1, 0⟩ = some .linux ∧
      after.ownerOf ⟨0, 1, 0⟩ = some .linux ∧
      ¬ start.directory.IsMember ⟨9, 0, 0⟩ ∧ after.ownerOf ⟨9, 0, 0⟩ = none := by
  intro operations start after
  have kept : ∀ operation ∈ operations, operation.regroups = false := by decide
  have hgroups : (start.directory.groupOf ⟨0, 1, 0⟩).isSome = true ∧
      ¬ (start.directory.groupOf ⟨9, 0, 0⟩).isSome = true := by
    decide +kernel
  have inside : start.directory.IsMember ⟨0, 1, 0⟩ := Directory.isMember_iff.2 hgroups.1
  have outside : ¬ start.directory.IsMember ⟨9, 0, 0⟩ := mt Directory.isMember_iff.1 hgroups.2
  have hlast : lastTarget operations ⟨0, 1, 0⟩ = some .linux := by decide
  obtain ⟨-, hnone, howned, -⟩ := ownerOf_history .compact ⟨.graphics, {}⟩ operations kept
  refine ⟨kept, inside, hlast, ?_, outside, ?_⟩
  · unfold after start
    exact howned ⟨0, 1, 0⟩ .linux inside hlast
  · unfold after start
    exact hnone ⟨9, 0, 0⟩ outside

end Devices
end CellVisor
