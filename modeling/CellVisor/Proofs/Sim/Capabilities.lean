import CellVisor.Proofs.Pci.Capabilities
import CellVisor.Proofs.Sim.Layout
import CellVisor.Sim.Machine

/-!
# CellVisor.Proofs.Sim.Capabilities

What is found and read back of the capabilities that are added to a simulated function.

* `Laid.entry_eq`: the entries of its list are its capabilities in their order.
* `Laid.capability?_eq`, `Laid.read_payload`: a search finds the first of a kind, and the payload of
  each is read back.
* `SimMachine.Offers`: the same as it is seen from a machine.
* `SimMachine.offers_addCapabilities`: capabilities can be added as long as they fit, and are then
  offered.
-/

namespace CellVisor
namespace Sim

namespace Addition

variable {id : UInt8} {link : Nat}

theorem toNat_header (hlink : link < 256) : (header id link).toNat = link * 256 + id.toNat := by
  have hid := id.toNat_lt
  have hlink : (UInt32.ofNat link).toNat = link :=
    UInt32.toNat_ofNat_of_lt' (by rw [UInt32.size]; omega)
  have hshift : link <<< (8 : UInt32).toNat = link * 256 := Nat.shiftLeft_eq _ _
  rw [header, UInt32.or_comm, Word.toNat_shiftLeft_or (by decide), hlink, hshift,
    UInt8.toNat_toUInt32]
  · rw [hlink, hshift, UInt32.size]
    omega
  · exact id.toNat_lt

theorem header_toUInt8 (hlink : link < 256) : (header id link).toUInt8 = id := by
  have hid := id.toNat_lt
  apply UInt8.toNat.inj
  rw [UInt32.toNat_toUInt8, toNat_header hlink]
  omega

/-- The link of a header is read back where it is the offset of a dword. -/
theorem header_link (hlink : link < 256) (aligned : link % 4 = 0) :
    (header id link >>> 8).toUInt8 &&& 0xFC = UInt8.ofNat link := by
  have hid := id.toNat_lt
  apply UInt8.toNat.inj
  rw [Pci.ConfigSpace.toNat_and_pointerMask, UInt32.toNat_toUInt8, UInt32.toNat_shiftRight,
    toNat_header hlink, Nat.shiftRight_eq_div_pow,
    UInt8.toNat_ofNat_of_lt' (by rw [UInt8.size]; omega)]
  simp
  omega

end Addition

namespace Device

open Addition (start link)

/-! ## What is read back -/

section Read

variable {identity : Pci.Identity} {device : Device} {capabilities : List Addition}
  {space : Pci.ConfigSpace} {address : Pci.Address}

theorem toNat_ids (device vendor : UInt16) :
    ((device.toUInt32 <<< 16) ||| vendor.toUInt32).toNat = device.toNat * 65536 + vendor.toNat := by
  have hdevice := device.toNat_lt
  have hshift : device.toNat <<< (16 : UInt32).toNat = device.toNat * 65536 := Nat.shiftLeft_eq _ _
  rw [Word.toNat_shiftLeft_or (by decide), UInt16.toNat_toUInt32, hshift, UInt16.toNat_toUInt32]
  · rw [UInt16.toNat_toUInt32, hshift, UInt32.size]
    omega
  · rw [UInt16.toNat_toUInt32]
    exact vendor.toNat_lt

theorem ids_vendor (device vendor : UInt16) :
    ((device.toUInt32 <<< 16) ||| vendor.toUInt32).toUInt16 = vendor := by
  have hvendor := vendor.toNat_lt
  apply UInt16.toNat.inj
  rw [UInt32.toNat_toUInt16, toNat_ids]
  omega

theorem ids_device (device vendor : UInt16) :
    (((device.toUInt32 <<< 16) ||| vendor.toUInt32) >>> 16).toUInt16 = device := by
  have hdevice := device.toNat_lt
  have hvendor := vendor.toNat_lt
  apply UInt16.toNat.inj
  rw [UInt32.toNat_toUInt16, UInt32.toNat_shiftRight, toNat_ids,
    show (16 : UInt32).toNat % 32 = 16 from rfl, Nat.shiftRight_eq_div_pow]
  omega

theorem shifted_baseClass (baseClass : UInt8) :
    ((baseClass.toUInt32 <<< 24) >>> 24).toUInt8 = baseClass := by
  have hclass := baseClass.toNat_lt
  apply UInt8.toNat.inj
  rw [UInt32.toNat_toUInt8, UInt32.toNat_shiftRight, UInt32.toNat_shiftLeft, UInt8.toNat_toUInt32,
    show (24 : UInt32).toNat % 32 = 24 from rfl, Nat.shiftRight_eq_div_pow, Nat.shiftLeft_eq]
  omega

theorem Laid.identity? (h : Laid identity device capabilities)
    (hread : ∀ offset, space address offset = device.read offset)
    (hvendor : identity.vendor ≠ 0 ∧ identity.vendor ≠ 0xFFFF) :
    space.identity? address = some identity := by
  have hids : space address 0x00 =
      (identity.device.toUInt32 <<< 16) ||| identity.vendor.toUInt32 := by
    rw [hread, read_eq]
    exact h.ids
  have hclass : space address 0x08 = identity.baseClass.toUInt32 <<< 24 := by
    rw [hread, read_eq]
    exact h.baseClass
  rw [Pci.ConfigSpace.identity?, hids, hclass, ids_vendor, ids_device, shifted_baseClass]
  exact if_neg (by simp [hvendor])

theorem Laid.hasCapabilities_iff (h : Laid identity device capabilities)
    (hread : ∀ offset, space address offset = device.read offset) :
    space.hasCapabilities address = true ↔ capabilities ≠ [] := by
  have hstatus : space address 0x04 = device.dword 1 := by rw [hread, read_eq]; rfl
  rw [Pci.ConfigSpace.hasCapabilities, hstatus, decide_eq_true_iff]
  constructor
  · intro hset hnil
    exact hset (h.unlisted hnil).2
  · exact fun hlisted => (h.listed hlisted).2.1

theorem Laid.toNat_offset (h : Laid identity device capabilities) {k : Nat} {addition : Addition}
    (hk : capabilities[k]? = some addition) :
    (Addition.offset capabilities k).toNat = 4 * start capabilities k := by
  have hroom := h.room
  have hsize := Addition.start_add_size_le_extent hk
  exact UInt8.toNat_ofNat_of_lt' (by rw [UInt8.size]; omega)

/-- The dword at the offset of a capability is its header. -/
theorem Laid.read_header (h : Laid identity device capabilities)
    (hread : ∀ offset, space address offset = device.read offset) {k : Nat} {addition : Addition}
    (hk : capabilities[k]? = some addition) :
    space address (Addition.offset capabilities k).toUInt16 =
      Addition.header addition.id (link capabilities k) := by
  rw [hread, read_eq, UInt8.toNat_toUInt16, h.toNat_offset hk,
    Nat.mul_div_cancel_left _ (by decide)]
  exact h.header k addition hk

theorem Laid.link_lt (h : Laid identity device capabilities) (k : Nat) :
    link capabilities k < 256 ∧ link capabilities k % 4 = 0 := by
  rw [link]
  split
  · rename_i hk
    have hroom := h.room
    have hsize := Addition.start_add_size_le_extent (List.getElem?_eq_getElem hk)
    omega
  · decide

/-- The entries of the list are the capabilities in their order, and then the list ends. -/
theorem Laid.entry_eq (h : Laid identity device capabilities)
    (hread : ∀ offset, space address offset = device.read offset) (hlisted : capabilities ≠ [])
    {k : Nat} (hk : k ≤ capabilities.length) :
    space.entry address k =
      if k < capabilities.length then Addition.offset capabilities k else 0 := by
  have hpos := List.length_pos_iff.2 hlisted
  induction k with
  | zero =>
    have hhead : space address 0x34 = 0x40 := by
      rw [hread, read_eq]
      exact (h.listed hlisted).2.2
    rw [if_pos hpos, Pci.ConfigSpace.entry, Pci.ConfigSpace.follow, Pci.ConfigSpace.headPointer,
      hhead, Addition.offset, Addition.start_zero]
    decide
  | succ k ih =>
    rw [Pci.ConfigSpace.entry_succ, ih (by omega), if_pos (by omega), Pci.ConfigSpace.nextPointer,
      h.read_header hread (List.getElem?_eq_getElem hk),
      Addition.header_link (h.link_lt k).1 (h.link_lt k).2, link]
    split
    · rfl
    · rfl

theorem Laid.capabilityId_entry (h : Laid identity device capabilities)
    (hread : ∀ offset, space address offset = device.read offset) {k : Nat} {addition : Addition}
    (hk : capabilities[k]? = some addition) :
    space.capabilityId address (space.entry address k) = addition.id := by
  have hlt := (List.getElem?_eq_some_iff.1 hk).1
  have hlisted : capabilities ≠ [] := by
    rintro rfl
    simp at hk
  rw [h.entry_eq hread hlisted (Nat.le_of_lt hlt), if_pos hlt, Pci.ConfigSpace.capabilityId,
    h.read_header hread hk, Addition.header_toUInt8 (h.link_lt k).1]

theorem Laid.entry_ne_zero_iff (h : Laid identity device capabilities)
    (hread : ∀ offset, space address offset = device.read offset) (hlisted : capabilities ≠ [])
    {k : Nat} (hk : k ≤ capabilities.length) :
    space.entry address k ≠ 0 ↔ k < capabilities.length := by
  rw [h.entry_eq hread hlisted hk]
  split
  · rename_i hlt
    refine iff_of_true (fun hzero => ?_) hlt
    have hoffset := h.toNat_offset (List.getElem?_eq_getElem hlt)
    have hbehind := Addition.le_start capabilities k
    rw [hzero, UInt8.toNat_zero] at hoffset
    omega
  · rename_i hge
    exact iff_of_false (fun hne => hne rfl) hge

/-- A search finds the first capability that was added with the number it looks for. -/
theorem Laid.capability?_eq (h : Laid identity device capabilities)
    (hread : ∀ offset, space address offset = device.read offset) (id : UInt8) :
    space.capability? address id =
      (capabilities.findIdx? fun addition => addition.id = id).map
        (Addition.offset capabilities) := by
  have hroom := h.room
  have hlength := Addition.length_le_extent capabilities
  cases hfind : capabilities.findIdx? fun addition => addition.id = id with
  | none =>
    rw [Option.map_none, Option.eq_none_iff_forall_ne_some]
    intro offset hsome
    obtain ⟨hlisted, n, -, hleads, -⟩ := Pci.ConfigSpace.capability?_eq_some_iff.1 hsome
    rw [h.hasCapabilities_iff hread] at hlisted
    have hlt : n < capabilities.length := by
      by_contra hge
      have hend := hleads.linked capabilities.length (Nat.not_lt.1 hge)
      exact Nat.lt_irrefl _ ((h.entry_ne_zero_iff hread hlisted (Nat.le_refl _)).1 hend)
    have hid := h.capabilityId_entry hread (List.getElem?_eq_getElem hlt)
    have hother := List.findIdx?_eq_none_iff.1 hfind _ (List.getElem_mem hlt)
    exact of_decide_eq_false hother (hid.symm.trans hleads.announced)
  | some k =>
    obtain ⟨hlt, hid, hfirst⟩ := List.findIdx?_eq_some_iff_getElem.1 hfind
    have hlisted : capabilities ≠ [] := List.length_pos_iff.1 (Nat.zero_lt_of_lt hlt)
    refine Pci.ConfigSpace.capability?_eq_some_iff.2
      ⟨(h.hasCapabilities_iff hread).2 hlisted, k, ?_, ?_, ?_⟩
    · rw [Pci.ConfigSpace.maxCapabilities]
      omega
    · exact
        { linked := fun i hi => (h.entry_ne_zero_iff hread hlisted (by omega)).2 (by omega)
          announced := (h.capabilityId_entry hread (List.getElem?_eq_getElem hlt)).trans
            (of_decide_eq_true hid)
          first := fun i hi hsame => by
            have hearlier := h.capabilityId_entry hread
              (List.getElem?_eq_getElem (Nat.lt_trans hi hlt))
            exact hfirst i hi (decide_eq_true (hearlier.symm.trans hsame)) }
    · rw [h.entry_eq hread hlisted (Nat.le_of_lt hlt), if_pos hlt]

/-- The payload of a capability is read back behind its header. -/
theorem Laid.read_payload (h : Laid identity device capabilities)
    (hread : ∀ offset, space address offset = device.read offset) {k : Nat} {addition : Addition}
    (hk : capabilities[k]? = some addition) {i : Nat} {value : UInt32}
    (hvalue : addition.payload[i]? = some value) :
    space address ((Addition.offset capabilities k).toUInt16 + 4 + 4 * UInt16.ofNat i) = value := by
  have hroom := h.room
  have hsize := Addition.start_add_size_le_extent hk
  have hi := (List.getElem?_eq_some_iff.1 hvalue).1
  have hoffset : ((Addition.offset capabilities k).toUInt16 + 4 + 4 * UInt16.ofNat i).toNat =
      4 * (start capabilities k + 1 + i) := by
    rw [UInt16.toNat_add, UInt16.toNat_add, UInt16.toNat_mul,
      UInt16.toNat_ofNat_of_lt' (by rw [UInt16.size]; omega), UInt8.toNat_toUInt16,
      h.toNat_offset hk]
    simp only [UInt16.reduceToNat]
    omega
  rw [hread, read_eq, hoffset, Nat.mul_div_cancel_left _ (by decide)]
  exact h.payload k addition hk i value hvalue

end Read

end Device
end Sim

/-! ## On a machine -/

namespace SimMachine

open Sim (Addition)
open Sim.Addition (extent)

/-- There is a function at an address, with an identity and the capabilities that were added. -/
def HasLaid (machine : SimMachine) (address : Pci.Address) (identity : Pci.Identity)
    (capabilities : List Addition) : Prop :=
  ∃ device, machine.devices.get? address = some device ∧ device.Laid identity capabilities

/-- Adds capabilities to the function at an address, one after the other. -/
def addCapabilities (address : Pci.Address) (capabilities : List Addition) :
    Action SimMachine Unit :=
  Action.attemptEach (fun addition => addCapability address addition.id addition.payload)
    capabilities

/-- What a search of the function at an address comes to. -/
def search (machine : SimMachine) (address : Pci.Address) (id : UInt8) : Outcome (Option UInt8) :=
  (Pci.ConfigSpace.findCapability machine.configRead address id ()).outcome

/-- The function at an address has these capabilities: a search finds the first of each kind, and
the payloads are read back behind the headers. -/
structure Offers (machine : SimMachine) (address : Pci.Address) (capabilities : List Addition) :
    Prop where
  found : ∀ id, machine.search address id =
    .ok ((capabilities.findIdx? fun addition => addition.id = id).map
      (Addition.offset capabilities))
  payload : ∀ k addition, capabilities[k]? = some addition →
    ∀ i value, addition.payload[i]? = some value →
      machine.configRead address
        ((Addition.offset capabilities k).toUInt16 + 4 + 4 * UInt16.ofNat i) = value

section Machine

variable {machine : SimMachine} {address other : Pci.Address} {identity : Pci.Identity}
  {capabilities more : List Addition} {addition : Addition} {device : Sim.Device}

theorem configRead_of_get? (h : machine.devices.get? address = some device) (offset : UInt16) :
    machine.configRead address offset = device.read offset := by
  unfold configRead
  rw [h]

@[simp] theorem get?_addDevice (address other : Pci.Address) (device : Sim.Device)
    (machine : SimMachine) :
    (machine.addDevice address device).devices.get? other =
      if other = address then some device else machine.devices.get? other :=
  Table.get?_insert _ _ _ _

theorem addCapability_of_some {id : UInt8} {payload : List UInt32} {after : Sim.Device}
    (h : machine.devices.get? address = some device)
    (hadd : device.addCapability? id payload = some after) :
    addCapability address id payload machine = ⟨.ok (), machine.addDevice address after, []⟩ := by
  unfold addCapability
  rw [Action.bind_of_ok (Action.get_apply machine), h]
  dsimp only
  rw [hadd]
  rfl

theorem addCapability_of_none {id : UInt8} {payload : List UInt32}
    (h : machine.devices.get? address = some device)
    (hadd : device.addCapability? id payload = none) :
    addCapability address id payload machine = ⟨.fault .outOfBounds, machine, []⟩ := by
  unfold addCapability
  rw [Action.bind_of_ok (Action.get_apply machine), h]
  dsimp only
  rw [hadd]
  rfl

theorem hasLaid_addDevice (machine : SimMachine) (address : Pci.Address)
    (h : device.Laid identity capabilities) :
    (machine.addDevice address device).HasLaid address identity capabilities :=
  ⟨device, by rw [get?_addDevice, if_pos rfl], h⟩

/-- Where there is room a capability is added to those that are there. Nothing happens to the other
functions. -/
theorem addCapability_of_room (h : machine.HasLaid address identity capabilities)
    (addition : Addition) (room : 16 + extent (capabilities ++ [addition]) ≤ 64) :
    ∃ after, addCapability address addition.id addition.payload machine = ⟨.ok (), after, []⟩ ∧
      after.HasLaid address identity (capabilities ++ [addition]) ∧
      ∀ other, other ≠ address → after.devices.get? other = machine.devices.get? other := by
  obtain ⟨device, hdevice, hlaid⟩ := h
  obtain ⟨extended, hadd, hextended⟩ := hlaid.add room
  refine ⟨_, addCapability_of_some hdevice hadd, hasLaid_addDevice machine address hextended,
    fun other hother => ?_⟩
  rw [get?_addDevice, if_neg hother]

theorem addCapability_of_full (h : machine.HasLaid address identity capabilities)
    (addition : Addition) (full : 64 < 16 + extent (capabilities ++ [addition])) :
    addCapability address addition.id addition.payload machine =
      ⟨.fault .outOfBounds, machine, []⟩ := by
  obtain ⟨device, hdevice, hlaid⟩ := h
  exact addCapability_of_none hdevice (hlaid.add_of_full full)

/-- As long as they fit, capabilities are added one after the other. -/
theorem addCapabilities_of_room (h : machine.HasLaid address identity capabilities)
    (room : 16 + extent (capabilities ++ more) ≤ 64) :
    ∃ after, addCapabilities address more machine = ⟨.ok (), after, []⟩ ∧
      after.HasLaid address identity (capabilities ++ more) := by
  induction more generalizing machine capabilities with
  | nil =>
    rw [List.append_nil]
    exact ⟨machine, rfl, h⟩
  | cons addition rest ih =>
    rw [List.append_cons] at room ⊢
    have hroom : 16 + extent (capabilities ++ [addition]) ≤ 64 := by
      rw [Addition.extent_append] at room
      omega
    obtain ⟨extended, hadd, hextended, -⟩ := addCapability_of_room h addition hroom
    obtain ⟨after, hrest, hafter⟩ := ih hextended room
    refine ⟨after, ?_, hafter⟩
    rw [addCapabilities, Action.attemptEach, Action.bind_of_ok (Action.attempt_of_ok hadd),
      Reply.after_nil]
    exact hrest

/-- The first that does not fit ends it. -/
theorem addCapabilities_of_full (h : machine.HasLaid address identity capabilities)
    (full : 64 < 16 + extent (capabilities ++ more)) :
    (addCapabilities address more machine).outcome = .fault .outOfBounds := by
  induction more generalizing machine capabilities with
  | nil =>
    obtain ⟨device, -, hlaid⟩ := h
    rw [List.append_nil] at full
    exact absurd hlaid.room (Nat.not_le.2 full)
  | cons addition rest ih =>
    rw [List.append_cons] at full
    rw [addCapabilities, Action.attemptEach]
    rcases Nat.lt_or_ge 64 (16 + extent (capabilities ++ [addition])) with hfull | hroom
    · rw [Action.bind_of_fault (Action.attempt_of_fault (addCapability_of_full h addition hfull))]
    · obtain ⟨extended, hadd, hextended, -⟩ := addCapability_of_room h addition hroom
      rw [Action.bind_of_ok (Action.attempt_of_ok hadd), Reply.after_nil]
      exact ih hextended full

theorem HasLaid.identity? (h : machine.HasLaid address identity capabilities)
    (hvendor : identity.vendor ≠ 0 ∧ identity.vendor ≠ 0xFFFF) :
    Pci.ConfigSpace.identity? machine.configRead address = some identity := by
  obtain ⟨device, hdevice, hlaid⟩ := h
  exact hlaid.identity? (configRead_of_get? hdevice) hvendor

theorem HasLaid.capability?_eq (h : machine.HasLaid address identity capabilities) (id : UInt8) :
    Pci.ConfigSpace.capability? machine.configRead address id =
      (capabilities.findIdx? fun addition => addition.id = id).map
        (Addition.offset capabilities) := by
  obtain ⟨device, hdevice, hlaid⟩ := h
  exact hlaid.capability?_eq (configRead_of_get? hdevice) id

theorem HasLaid.read_payload (h : machine.HasLaid address identity capabilities) {k : Nat}
    (hk : capabilities[k]? = some addition) {i : Nat} {value : UInt32}
    (hvalue : addition.payload[i]? = some value) :
    machine.configRead address
        ((Addition.offset capabilities k).toUInt16 + 4 + 4 * UInt16.ofNat i) = value := by
  obtain ⟨device, hdevice, hlaid⟩ := h
  exact hlaid.read_payload (configRead_of_get? hdevice) hk hvalue

theorem HasLaid.offers (h : machine.HasLaid address identity capabilities) :
    machine.Offers address capabilities where
  found := fun id => by
    obtain ⟨log, hfound⟩ :=
      Pci.ConfigSpace.findCapability_eq machine.configRead address id ()
    rw [search, hfound, h.capability?_eq]
  payload := fun _ _ hk _ _ hvalue => h.read_payload hk hvalue

/-- Once more is added, what was there before is found and read as it was. -/
theorem Offers.kept (h : machine.Offers address capabilities) {next : SimMachine}
    (later : next.Offers address (capabilities ++ more)) :
    (∀ id, (∃ addition ∈ capabilities, addition.id = id) ∨ (∀ addition ∈ more, addition.id ≠ id) →
      next.search address id = machine.search address id) ∧
    ∀ k addition, capabilities[k]? = some addition → ∀ i value, addition.payload[i]? = some value →
      next.configRead address
        ((Addition.offset capabilities k).toUInt16 + 4 + 4 * UInt16.ofNat i) = value := by
  have hoffset {k : Nat} (hk : k < capabilities.length) :
      Addition.offset (capabilities ++ more) k = Addition.offset capabilities k := by
    rw [Addition.offset, Addition.start_append (Nat.le_of_lt hk), Addition.offset]
  refine ⟨fun id settled => ?_, fun k addition hk i value hvalue => ?_⟩
  · rw [h.found, later.found, List.findIdx?_append]
    cases hfind : capabilities.findIdx? fun addition => addition.id = id with
    | some k =>
      have hk := (List.findIdx?_eq_some_iff_getElem.1 hfind).1
      rw [Option.some_or, Option.map_some, Option.map_some, hoffset hk]
    | none =>
      have hother : ∀ addition ∈ more, addition.id ≠ id := by
        refine settled.resolve_left ?_
        rintro ⟨addition, hmem, hid⟩
        exact of_decide_eq_false (List.findIdx?_eq_none_iff.1 hfind addition hmem) hid
      have hnone : (more.findIdx? fun addition => addition.id = id) = none :=
        List.findIdx?_eq_none_iff.2 fun addition hmem => decide_eq_false (hother addition hmem)
      rw [hnone]
      rfl
  · have hlt := (List.getElem?_eq_some_iff.1 hk).1
    rw [← hoffset hlt]
    exact later.payload k addition (by rw [List.getElem?_append_left hlt, hk]) i value hvalue

/-- Capabilities can be added to a new function exactly as long as they fit. Then they are what it
offers, and those that are added later change nothing of that. -/
theorem offers_addCapabilities (machine : SimMachine) (address : Pci.Address)
    (vendor device : UInt16) (baseClass : UInt8) (capabilities : List Addition) :
    let added := addCapabilities address capabilities
      (machine.addDevice address (.ofIdentity vendor device baseClass))
    (added.outcome = .ok () ↔ extent capabilities ≤ 48) ∧
    (added.outcome = .ok () → added.state.Offers address capabilities ∧
      ∀ more, (addCapabilities address more added.state).outcome = .ok () →
        (addCapabilities address more added.state).state.Offers address
          (capabilities ++ more)) := by
  intro added
  have hfresh := hasLaid_addDevice machine address
    (Sim.Device.laid_ofIdentity vendor device baseClass)
  rcases Nat.lt_or_ge 64 (16 + extent capabilities) with hfull | hroom
  · have hfault : added.outcome = .fault .outOfBounds := addCapabilities_of_full hfresh hfull
    rw [hfault]
    refine ⟨iff_of_false nofun (by omega), nofun⟩
  · obtain ⟨after, hreply, hafter⟩ := addCapabilities_of_room hfresh hroom
    have hadded : added = ⟨.ok (), after, []⟩ := hreply
    rw [hadded]
    refine ⟨iff_of_true rfl (by omega), fun _ => ⟨hafter.offers, fun more hmore => ?_⟩⟩
    rcases Nat.lt_or_ge 64 (16 + extent (capabilities ++ more)) with hfull | hroom
    · cases hmore.symm.trans (addCapabilities_of_full hafter hfull)
    · obtain ⟨last, hreply, hlast⟩ := addCapabilities_of_room hafter hroom
      rw [hreply]
      exact hlast.offers

end Machine

end SimMachine
end CellVisor
