import CellVisor.Proofs.Iommu.Groups

/-!
# CellVisor.Proofs.Iommu.Grouping

Which groups a directory has after they were set up, whatever is on the buses and whatever groups
there were before.

* `Config.ownerForVendor_eq_some_iff`: a vendor belongs to the cell of its first entry.
* `Directory.ownerOf_groupEach`: the owner of a device is what it is listed with.
* `Directory.groups_listed`: the groups are the display devices of known vendors, in the order
  of their addresses, as far as there is room.
-/

namespace CellVisor

/-- A vendor belongs to the cell of its first entry. -/
theorem Config.ownerForVendor_eq_some_iff {config : Config} {vendor : UInt16} {owner : CellId} :
    config.ownerForVendor vendor = some owner ↔
      ∃ earlier later, config.deviceOwners = earlier ++ ⟨vendor, owner⟩ :: later ∧
        ∀ entry ∈ earlier, entry.vendor ≠ vendor := by
  unfold ownerForVendor
  simp only [Option.map_eq_some_iff, List.find?_eq_some_iff_append, decide_eq_true_iff]
  constructor
  · rintro ⟨⟨_, _⟩, ⟨rfl, earlier, later, hentries, hother⟩, rfl⟩
    exact ⟨earlier, later, hentries, by simpa using hother⟩
  · rintro ⟨earlier, later, hentries, hother⟩
    exact ⟨⟨vendor, owner⟩, ⟨rfl, earlier, later, hentries, by simpa using hother⟩, rfl⟩

namespace Directory

/-! ## Who owns what -/

theorem ownerOf_groupEach (directory : Directory) (count : Nat)
    (entries : List (Pci.Address × CellId)) (address : Pci.Address) :
    ({ directory with groups := groupEach count entries } : Directory).ownerOf address =
      entries.lookup address := by
  unfold ownerOf groupOf
  induction entries generalizing count with
  | nil => rfl
  | cons entry rest ih =>
    obtain ⟨device, owner⟩ := entry
    have hsingle (id : UInt32) :
        (⟨id, owner, [device]⟩ : IommuGroup).contains address = (address == device) := by
      rw [Bool.eq_iff_iff, IommuGroup.contains_iff, List.mem_singleton, beq_iff_eq]
    rw [groupEach_cons, List.find?_cons, List.lookup_cons, hsingle]
    cases address == device with
    | true => rfl
    | false => exact ih (count + 1)

/-- Where no device is listed twice its owner is the one in its entry. -/
theorem lookup_eq_some_iff_mem {entries : List (Pci.Address × CellId)}
    (distinct : (entries.map Prod.fst).Nodup) {address : Pci.Address} {owner : CellId} :
    entries.lookup address = some owner ↔ (address, owner) ∈ entries := by
  rw [List.lookup_eq_some_iff]
  constructor
  · rintro ⟨earlier, later, rfl, -⟩
    exact List.mem_append_right _ List.mem_cons_self
  · intro hmem
    obtain ⟨earlier, later, rfl⟩ := List.append_of_mem hmem
    refine ⟨earlier, later, rfl, fun entry hentry => ?_⟩
    rw [List.map_append, List.map_cons, List.nodup_append] at distinct
    have hne := distinct.2.2 entry.1 (List.mem_map_of_mem hentry) address List.mem_cons_self
    simpa using hne.symm

/-! ## The groups -/

theorem getElem?_groupEach (count : Nat) (entries : List (Pci.Address × CellId)) (i : Nat) :
    (groupEach count entries)[i]? =
      entries[i]?.map fun entry => ⟨UInt32.ofNat (count + i), entry.2, [entry.1]⟩ := by
  rw [groupEach, List.getElem?_map, List.getElem?_zipIdx, Option.map_map]
  rfl

theorem Grouped.flatMap_devices {groups : List IommuGroup} {addresses : List Pci.Address}
    (h : Grouped groups addresses) : groups.flatMap IommuGroup.devices = addresses := by
  rw [List.flatMap_def, h.devices, ← List.flatMap_def, List.flatMap_singleton']

/-- Whatever is on the buses, the groups are the display devices whose vendor has an owner, in the
order of their addresses: as many of them as fit, numbered from zero, of one device each, and owned
by the cell of the first entry for the vendor. Their number is given unless there are more than 64,
which is an error. So no device is in two groups, the devices are such that can exist, each belongs
to the cell that it is listed with and every other address to none, and to set the groups up again
makes no difference. -/
theorem groups_listed (space : Pci.ConfigSpace) (config : Config) (directory : Directory) :
    let entries := passedThrough config.ownerForVendor space.functions
    let reply := setupGroups space config.ownerForVendor directory
    let groups := reply.state.groups
    ((∀ address owner, (address, owner) ∈ entries ↔
        ∃ identity, (address, identity) ∈ space.functions ∧ identity.baseClass = 0x03 ∧
          ∃ earlier later, config.deviceOwners = earlier ++ ⟨identity.vendor, owner⟩ :: later ∧
            ∀ entry ∈ earlier, entry.vendor ≠ identity.vendor) ∧
      (entries.map Prod.fst).Pairwise (· < ·)) ∧
    (reply.outcome =
        if entries.length ≤ 64 then .ok entries.length else .error .resourceExhausted) ∧
    (reply.state = { directory with groups } ∧ groups.length = min entries.length 64) ∧
    (∀ (i : Nat) (group : IommuGroup), groups[i]? = some group →
      group.id.toNat = i ∧ ∃ address, entries[i]? = some (address, group.owner) ∧
        group.devices = [address]) ∧
    ((groups.flatMap IommuGroup.devices).Nodup ∧
      ∀ address ∈ groups.flatMap IommuGroup.devices,
        address.device < 32 ∧ address.function < 8) ∧
    (∀ address owner,
      reply.state.ownerOf address = some owner ↔ (address, owner) ∈ entries.take 64) ∧
    setupGroups space config.ownerForVendor reply.state = reply := by
  intro entries reply groups
  obtain ⟨log, hreply⟩ := setupGroups_eq space config.ownerForVendor directory
  have hreply : reply = _ := hreply
  have hgroups : groups = groupEach 0 (entries.take maxGroups) :=
    congrArg (fun reply => reply.state.groups) hreply
  have hgrouped : Grouped groups ((entries.take maxGroups).map Prod.fst) := by
    rw [hgroups]
    exact grouped_setupGroups space config.ownerForVendor
  refine ⟨⟨fun address owner => ?listed, ?ordered⟩, ?outcome, ⟨?state, ?number⟩,
    fun i group hgroup => ?group, ?devices, fun address owner => ?owner, ?again⟩
  case listed =>
    simp only [entries, mem_passedThrough, Pci.Identity.isDisplay, Pci.displayClass, beq_iff_eq,
      Config.ownerForVendor_eq_some_iff]
  case ordered =>
    exact Pci.ConfigSpace.pairwise_functions.sublist (sublist_passedThrough _ _)
  case outcome => exact congrArg Reply.outcome hreply
  case state =>
    rw [hgroups]
    exact congrArg Reply.state hreply
  case number =>
    rw [hgroups, length_groupEach, List.length_take, Nat.min_comm]
    rfl
  case group =>
    rw [hgroups, getElem?_groupEach, Nat.zero_add, List.getElem?_take] at hgroup
    obtain ⟨⟨address, owner⟩, hentry, rfl⟩ := Option.map_eq_some_iff.1 hgroup
    split at hentry
    · rename_i hi
      have hsize : UInt32.size = 4294967296 := rfl
      have hmax : maxGroups = 64 := rfl
      exact ⟨UInt32.toNat_ofNat_of_lt' (by omega), address, hentry, rfl⟩
    · cases hentry
  case devices =>
    rw [hgrouped.flatMap_devices]
    refine ⟨hgrouped.distinct, fun address haddress => ?_⟩
    have hvalid := hgrouped.valid address haddress
    simpa [Pci.Address.isValid] using hvalid
  case owner =>
    have howner : reply.state.ownerOf address = (entries.take maxGroups).lookup address := by
      rw [hreply]
      exact ownerOf_groupEach directory 0 _ address
    rw [howner]
    exact lookup_eq_some_iff_mem hgrouped.distinct
  case again =>
    -- the groups there were are forgotten, and nothing else is different
    rw [hreply]
    exact hreply

end Directory
end CellVisor
