import CellVisor.Iommu.Directory
import CellVisor.Proofs.Action
import CellVisor.Proofs.Pci.Enumeration

/-!
# CellVisor.Proofs.Iommu.Groups

The groups of a directory: one device each, and each device in one group, so that to give a group
away is to give away its device.

* `passedThrough`: the devices that get a group each, and `setupGroups_eq` the groups they get.
* `Directory.Grouped`: what the groups are made of, and `state_setupGroups` that setting them up
  makes them so, even where there are too many devices, and touches nothing else.
* `reown_eq_given`, `Grouped.ownerOf_given`: to give a device away changes the owner of no other.
* `assign_cases`: how an assignment ends.
-/

namespace CellVisor

/-- An empty group has room. -/
theorem IommuGroup.ofExcept_add {σ : Type} (id : UInt32) (owner : CellId) (address : Pci.Address)
    (state : σ) :
    Action.ofExcept ((⟨id, owner, []⟩ : IommuGroup).add address) state =
      ⟨.ok ⟨id, owner, [address]⟩, state, []⟩ := rfl

namespace Directory

/-! ## How groups are built -/

/-- The devices that are passed through, each with the cell of its vendor. -/
def passedThrough (ownerFor : UInt16 → Option CellId)
    (devices : List (Pci.Address × Pci.Identity)) : List (Pci.Address × CellId) :=
  devices.filterMap fun device =>
    if device.2.isDisplay then (ownerFor device.2.vendor).map fun owner => (device.1, owner)
    else none

section Device

variable {ownerFor : UInt16 → Option CellId} {address : Pci.Address} {identity : Pci.Identity}
  {rest : List (Pci.Address × Pci.Identity)} {directory : Directory}

theorem groupDevices_of_other (other : identity.isDisplay = false) :
    groupDevices ownerFor ((address, identity) :: rest) directory =
      groupDevices ownerFor rest directory := by
  rw [groupDevices, if_neg (by simp [other])]

theorem groupDevices_of_unmapped (display : identity.isDisplay = true)
    (unmapped : ownerFor identity.vendor = none) :
    groupDevices ownerFor ((address, identity) :: rest) directory =
      (groupDevices ownerFor rest directory).after [.vendorUnmapped address identity.vendor] := by
  rw [groupDevices, if_pos display, unmapped]
  exact Action.note_bind _ _ _

theorem passedThrough_of_other (other : identity.isDisplay = false) :
    passedThrough ownerFor ((address, identity) :: rest) = passedThrough ownerFor rest := by
  simp [passedThrough, other]

theorem passedThrough_of_unmapped (unmapped : ownerFor identity.vendor = none) :
    passedThrough ownerFor ((address, identity) :: rest) = passedThrough ownerFor rest := by
  simp [passedThrough, unmapped]

variable {owner : CellId}

theorem passedThrough_of_mapped (display : identity.isDisplay = true)
    (mapped : ownerFor identity.vendor = some owner) :
    passedThrough ownerFor ((address, identity) :: rest) =
      (address, owner) :: passedThrough ownerFor rest := by
  simp [passedThrough, display, mapped]

theorem groupDevices_of_full (display : identity.isDisplay = true)
    (mapped : ownerFor identity.vendor = some owner) (full : maxGroups ≤ directory.groups.length) :
    groupDevices ownerFor ((address, identity) :: rest) directory =
      ⟨.error .resourceExhausted, directory, []⟩ := by
  rw [groupDevices, if_pos display, mapped]
  dsimp only
  rw [Action.bind_of_ok (Action.get_apply directory),
    Action.bind_of_ok (IommuGroup.ofExcept_add _ owner address directory), if_pos full]
  rfl

theorem groupDevices_of_room (display : identity.isDisplay = true)
    (mapped : ownerFor identity.vendor = some owner) (room : directory.groups.length < maxGroups) :
    groupDevices ownerFor ((address, identity) :: rest) directory =
      (groupDevices ownerFor rest { directory with
        groups := directory.groups ++
          [⟨UInt32.ofNat directory.groups.length, owner, [address]⟩] }).after
        [.deviceGrouped directory.groups.length address owner] := by
  rw [groupDevices, if_pos display, mapped]
  dsimp only
  rw [Action.bind_of_ok (Action.get_apply directory),
    Action.bind_of_ok (IommuGroup.ofExcept_add _ owner address directory),
    if_neg (Nat.not_le.2 room)]
  rfl

end Device

theorem mem_passedThrough {ownerFor : UInt16 → Option CellId}
    {devices : List (Pci.Address × Pci.Identity)} {address : Pci.Address} {owner : CellId} :
    (address, owner) ∈ passedThrough ownerFor devices ↔
      ∃ identity, (address, identity) ∈ devices ∧ identity.isDisplay = true ∧
        ownerFor identity.vendor = some owner := by
  unfold passedThrough
  simp only [List.mem_filterMap, Option.ite_none_right_eq_some, Option.map_eq_some_iff,
    Prod.mk.injEq]
  constructor
  · rintro ⟨⟨_, identity⟩, hmem, hdisplay, _, howner, rfl, rfl⟩
    exact ⟨identity, hmem, hdisplay, howner⟩
  · rintro ⟨identity, hmem, hdisplay, howner⟩
    exact ⟨(address, identity), hmem, hdisplay, owner, howner, rfl, rfl⟩

/-- They stay in their order. -/
theorem sublist_passedThrough (ownerFor : UInt16 → Option CellId)
    (devices : List (Pci.Address × Pci.Identity)) :
    ((passedThrough ownerFor devices).map Prod.fst).Sublist (devices.map Prod.fst) := by
  induction devices with
  | nil => exact List.Sublist.refl []
  | cons device rest ih =>
    obtain ⟨address, identity⟩ := device
    cases hdisplay : identity.isDisplay with
    | false =>
      rw [passedThrough_of_other hdisplay]
      exact ih.cons address
    | true =>
      cases howner : ownerFor identity.vendor with
      | none =>
        rw [passedThrough_of_unmapped howner]
        exact ih.cons address
      | some owner =>
        rw [passedThrough_of_mapped hdisplay howner]
        exact ih.cons_cons address

/-- A group for each of these devices, numbered from `count` on. -/
def groupEach (count : Nat) (entries : List (Pci.Address × CellId)) : List IommuGroup :=
  (entries.zipIdx count).map fun entry => ⟨UInt32.ofNat entry.2, entry.1.2, [entry.1.1]⟩

theorem groupEach_cons (count : Nat) (address : Pci.Address) (owner : CellId)
    (rest : List (Pci.Address × CellId)) :
    groupEach count ((address, owner) :: rest) =
      ⟨UInt32.ofNat count, owner, [address]⟩ :: groupEach (count + 1) rest := rfl

@[simp] theorem length_groupEach (count : Nat) (entries : List (Pci.Address × CellId)) :
    (groupEach count entries).length = entries.length := by
  rw [groupEach, List.length_map, List.length_zipIdx]

theorem devices_groupEach (count : Nat) (entries : List (Pci.Address × CellId)) :
    (groupEach count entries).map IommuGroup.devices =
      (entries.map Prod.fst).map fun address => [address] := by
  induction entries generalizing count with
  | nil => rfl
  | cons entry rest ih =>
    obtain ⟨address, owner⟩ := entry
    rw [groupEach_cons, List.map_cons, ih]
    rfl

/-- Of the devices that are gone through, those that are passed through get a group each behind the
groups there are, as long as there is room. Nothing else of the directory changes, and it is an
error if they are too many. -/
theorem groupDevices_eq (ownerFor : UInt16 → Option CellId)
    (devices : List (Pci.Address × Pci.Identity)) (directory : Directory)
    (bounded : directory.groups.length ≤ maxGroups) :
    let entries := passedThrough ownerFor devices
    let count := directory.groups.length
    ∃ log, groupDevices ownerFor devices directory =
      ⟨if count + entries.length ≤ maxGroups then .ok () else .error .resourceExhausted,
        { directory with
          groups := directory.groups ++ groupEach count (entries.take (maxGroups - count)) },
        log⟩ := by
  induction devices generalizing directory with
  | nil =>
    refine ⟨[], ?_⟩
    rw [if_pos (by simpa [passedThrough] using bounded)]
    simp [groupDevices, passedThrough, groupEach, Action.pure_apply]
  | cons device rest ih =>
    obtain ⟨address, identity⟩ := device
    dsimp only at ih ⊢
    cases hdisplay : identity.isDisplay with
    | false =>
      rw [groupDevices_of_other hdisplay, passedThrough_of_other hdisplay]
      exact ih directory bounded
    | true =>
      cases howner : ownerFor identity.vendor with
      | none =>
        obtain ⟨log, hrest⟩ := ih directory bounded
        rw [groupDevices_of_unmapped hdisplay howner, passedThrough_of_unmapped howner, hrest]
        exact ⟨_, rfl⟩
      | some owner =>
        rw [passedThrough_of_mapped hdisplay howner, List.length_cons]
        by_cases hroom : directory.groups.length < maxGroups
        · let group : IommuGroup := ⟨UInt32.ofNat directory.groups.length, owner, [address]⟩
          let grown : Directory := { directory with groups := directory.groups ++ [group] }
          have hgrown : grown.groups.length = directory.groups.length + 1 := List.length_append
          obtain ⟨log, hrest⟩ := ih grown (by omega)
          -- one place is taken, and one device fewer is left
          have hplaces : maxGroups - directory.groups.length =
              maxGroups - (directory.groups.length + 1) + 1 := by omega
          refine ⟨[.deviceGrouped directory.groups.length address owner] ++ log, ?_⟩
          rw [groupDevices_of_room hdisplay howner hroom, hrest, hgrown, hplaces,
            List.take_succ_cons, groupEach_cons, Reply.after_mk, List.append_assoc,
            List.singleton_append, Nat.add_assoc,
            Nat.add_comm 1 (passedThrough ownerFor rest).length]
        · have hfull : maxGroups - directory.groups.length = 0 := by omega
          refine ⟨[], ?_⟩
          rw [groupDevices_of_full hdisplay howner (Nat.not_lt.1 hroom), if_neg (by omega), hfull,
            List.take_zero]
          simp [groupEach]

/-- The groups are set up anew, one for each device that is passed through. Those that fit stay
where there are too many, and nothing else of the directory changes. -/
theorem setupGroups_eq (space : Pci.ConfigSpace) (ownerFor : UInt16 → Option CellId)
    (directory : Directory) :
    let entries := passedThrough ownerFor space.functions
    ∃ log, setupGroups space ownerFor directory =
      ⟨if entries.length ≤ maxGroups then .ok entries.length else .error .resourceExhausted,
        { directory with groups := groupEach 0 (entries.take maxGroups) }, log⟩ := by
  let blank : Directory := { directory with groups := [] }
  obtain ⟨log, hgrouped⟩ := groupDevices_eq ownerFor space.functions blank (Nat.zero_le _)
  rw [show blank.groups.length = 0 from rfl, Nat.zero_add, Nat.sub_zero] at hgrouped
  dsimp only
  unfold setupGroups
  rw [Action.bind_of_ok (Action.update_apply _ directory), Reply.after_nil]
  by_cases hfits : (passedThrough ownerFor space.functions).length ≤ maxGroups
  · rw [if_pos hfits] at hgrouped ⊢
    have hcount : (groupEach 0 ((passedThrough ownerFor space.functions).take maxGroups)).length =
        (passedThrough ownerFor space.functions).length := by
      rw [length_groupEach, List.take_of_length_le hfits]
    rw [Action.bind_of_ok (Action.attempt_of_ok hgrouped)]
    dsimp only
    rw [Action.bind_of_ok (Action.get_apply _), Action.pure_apply, List.nil_append, hcount]
    exact ⟨_, rfl⟩
  · rw [if_neg hfits] at hgrouped ⊢
    rw [Action.bind_of_ok (Action.attempt_of_error hgrouped)]
    exact ⟨_, rfl⟩

/-- The groups have one device each: these, which are distinct and such that can exist. -/
structure Grouped (groups : List IommuGroup) (addresses : List Pci.Address) : Prop where
  devices : groups.map IommuGroup.devices = addresses.map fun address => [address]
  distinct : addresses.Nodup
  valid : ∀ address ∈ addresses, address.isValid = true

theorem grouped_setupGroups (space : Pci.ConfigSpace) (ownerFor : UInt16 → Option CellId) :
    Grouped (groupEach 0 ((passedThrough ownerFor space.functions).take maxGroups))
      (((passedThrough ownerFor space.functions).take maxGroups).map Prod.fst) := by
  have hsub : (((passedThrough ownerFor space.functions).take maxGroups).map Prod.fst).Sublist
      (space.functions.map Prod.fst) :=
    ((List.take_sublist _ _).map _).trans (sublist_passedThrough ownerFor _)
  exact
    { devices := devices_groupEach 0 _
      distinct := Pci.ConfigSpace.nodup_functions.sublist hsub
      valid := fun _ hmem => Pci.ConfigSpace.isValid_of_mem_functions (hsub.subset hmem) }

/-- The groups are set up anew, as they should be, and nothing else of the directory changes. -/
theorem state_setupGroups (space : Pci.ConfigSpace) (ownerFor : UInt16 → Option CellId)
    (directory : Directory) :
    ∃ groups addresses, Grouped groups addresses ∧
      (setupGroups space ownerFor directory).state = { directory with groups } := by
  obtain ⟨log, hsetup⟩ := setupGroups_eq space ownerFor directory
  exact ⟨_, _, grouped_setupGroups space ownerFor, congrArg Reply.state hsetup⟩

/-! ## How a group changes hands -/

section Owner

variable {groups : List IommuGroup} {addresses : List Pci.Address} {address : Pci.Address}

/-- What a group has apart from its owner stays as it is in every group. -/
theorem map_reown {β : Type} {part : IommuGroup → β} {owner : CellId}
    (h : ∀ group : IommuGroup, part (group.setOwner owner) = part group) (address : Pci.Address)
    (groups : List IommuGroup) : (reown address owner groups).map part = groups.map part := by
  induction groups with
  | nil => rfl
  | cons group rest ih =>
    unfold reown
    split
    · rw [List.map_cons, List.map_cons, h]
    · rw [List.map_cons, List.map_cons, ih]

theorem Grouped.single (h : Grouped groups addresses) {group : IommuGroup} (hmem : group ∈ groups) :
    ∃ device ∈ addresses, ∀ address, group.contains address = true ↔ address = device := by
  have hdevices : group.devices ∈ groups.map IommuGroup.devices := List.mem_map_of_mem hmem
  rw [h.devices] at hdevices
  obtain ⟨device, hdevice, heq⟩ := List.mem_map.1 hdevices
  refine ⟨device, hdevice, fun address => ?_⟩
  rw [IommuGroup.contains_iff, ← heq, List.mem_singleton]

/-- No device is in two groups. -/
theorem Grouped.apart (h : Grouped groups addresses) :
    groups.Pairwise fun group other =>
      ∀ address, group.contains address = true → other.contains address = false := by
  have hpairs : (groups.map IommuGroup.devices).Pairwise fun devices others =>
      ∀ address ∈ devices, address ∉ others := by
    rw [h.devices, List.pairwise_map]
    exact h.distinct.imp fun hne => by simpa using hne
  refine (List.pairwise_map.1 hpairs).imp fun hne address hmem => ?_
  exact decide_eq_false (hne address (of_decide_eq_true hmem))

/-- With `owner` as the owner of every group that has the device at `address`. -/
def given (address : Pci.Address) (owner : CellId) (groups : List IommuGroup) : List IommuGroup :=
  groups.map fun group => if group.contains address then group.setOwner owner else group

/-- The first group that has a device is the only one. -/
theorem reown_eq_given (h : Grouped groups addresses) (address : Pci.Address) (owner : CellId) :
    reown address owner groups = given address owner groups := by
  have hapart := h.apart
  clear h
  induction groups with
  | nil => rfl
  | cons group rest ih =>
    obtain ⟨hfirst, hrest⟩ := List.pairwise_cons.1 hapart
    rw [given, List.map_cons, reown]
    split
    · rename_i hmem
      congr 1
      refine (List.map_id' rest).symm.trans (List.map_congr_left fun other hother => ?_)
      rw [hfirst other hother address hmem, if_neg Bool.false_ne_true]
    · rw [ih hrest, given]

end Owner

section Assign

variable {directory : Directory} {addresses : List Pci.Address} {address : Pci.Address}
  {owner : CellId}

theorem contains_of_groupOf {group : IommuGroup} (h : directory.groupOf address = some group) :
    group ∈ directory.groups ∧ group.contains address = true :=
  ⟨List.mem_of_find?_eq_some h,
    List.find?_some (p := fun group : IommuGroup => group.contains address) h⟩

/-- A device in a group is one of those that the groups are made of. -/
theorem Grouped.mem_of_ownerOf (h : Grouped directory.groups addresses)
    (owned : directory.ownerOf address = some owner) : address ∈ addresses := by
  obtain ⟨group, hgroup, -⟩ := Option.map_eq_some_iff.1 owned
  obtain ⟨hmem, hcontains⟩ := contains_of_groupOf hgroup
  obtain ⟨device, hdevice, hsingle⟩ := h.single hmem
  rw [(hsingle address).1 hcontains]
  exact hdevice

theorem groupOf_given (directory : Directory) (address : Pci.Address) (owner : CellId)
    (other : Pci.Address) :
    ({ directory with groups := given address owner directory.groups } : Directory).groupOf other =
      (directory.groupOf other).map fun group =>
        if group.contains address = true then group.setOwner owner else group := by
  have hkept : ∀ group : IommuGroup,
      (if group.contains address = true then group.setOwner owner else group).contains other =
        group.contains other := by
    intro group
    split <;> rfl
  unfold groupOf given
  rw [List.find?_map]
  congr 2
  funext group
  exact hkept group

/-- The group of another device is not the one that is given away. -/
theorem Grouped.groupOf_given_of_ne (h : Grouped directory.groups addresses)
    {other : Pci.Address} (different : other ≠ address) (owner : CellId) :
    ({ directory with groups := given address owner directory.groups } : Directory).groupOf other =
      directory.groupOf other := by
  rw [groupOf_given]
  cases hgroup : directory.groupOf other with
  | none => rfl
  | some group =>
    obtain ⟨hmem, hcontains⟩ := contains_of_groupOf hgroup
    obtain ⟨device, -, hsingle⟩ := h.single hmem
    have hnot : ¬ group.contains address = true := by
      rw [hsingle] at hcontains ⊢
      exact fun hsame => different (hcontains.trans hsame.symm)
    rw [Option.map_some, if_neg hnot]

/-- A device that is given away has its new owner, and every other device the one that it had. -/
theorem Grouped.ownerOf_given (h : Grouped directory.groups addresses) {previous : CellId}
    (owned : directory.ownerOf address = some previous) (owner : CellId) (other : Pci.Address) :
    ({ directory with groups := given address owner directory.groups } : Directory).ownerOf other =
      if other = address then some owner else directory.ownerOf other := by
  by_cases hother : other = address
  · obtain ⟨group, hgroup, -⟩ := Option.map_eq_some_iff.1 owned
    rw [if_pos hother, hother, ownerOf, groupOf_given, hgroup, Option.map_some, Option.map_some,
      if_pos (contains_of_groupOf hgroup).2]
    rfl
  · rw [if_neg hother, ownerOf, h.groupOf_given_of_ne hother, ownerOf]

/-- How an assignment ends. -/
inductive Assigned (address : Pci.Address) (owner : CellId) (directory : Directory) :
    Reply Directory Unit → Prop where
  | ungrouped (unowned : directory.ownerOf address = none) :
      Assigned address owner directory ⟨.error (.config .deviceInNoGroup), directory, []⟩
  | kept (owned : directory.ownerOf address = some owner) :
      Assigned address owner directory ⟨.ok (), directory, []⟩
  | moved (group : IommuGroup) (found : directory.groupOf address = some group)
      (foreign : group.owner ≠ owner) :
      Assigned address owner directory
        ⟨.ok (), { directory with groups := reown address owner directory.groups },
          [.groupMoved group.id group.owner owner]⟩

theorem assign_cases (address : Pci.Address) (owner : CellId) (directory : Directory) :
    Assigned address owner directory (assign address owner directory) := by
  unfold assign
  rw [Action.bind_of_ok (Action.get_apply directory), Reply.after_nil]
  cases hgroup : directory.groupOf address with
  | none => exact .ungrouped (by rw [ownerOf, hgroup, Option.map_none])
  | some group =>
    dsimp only
    split
    · rename_i hforeign
      exact .moved group hgroup hforeign
    · rename_i howned
      exact .kept (by rw [ownerOf, hgroup, Option.map_some, Decidable.not_not.1 howned])

theorem state_assign (address : Pci.Address) (owner : CellId) (directory : Directory) :
    ∃ groups, (assign address owner directory).state = { directory with groups } := by
  have hcases := assign_cases address owner directory
  generalize assign address owner directory = reply at hcases ⊢
  cases hcases with
  | ungrouped | kept => exact ⟨directory.groups, rfl⟩
  | moved => exact ⟨_, rfl⟩

end Assign

end Directory
end CellVisor
