import CellVisor.Proofs.Iommu.Detection
import CellVisor.Sim.Machine

/-!
# CellVisor.Proofs.Iommu.Cutoff

Where the base of a detected controller is read from, whatever the configuration space holds. A
malformed list can lead to a capability at the end of the space, and the dwords of its base are
then read from outside.

* `Controller.CutOff`: the base of a controller does not fit into the space.
* `Controller.le_base_of_cutOff`, `Controller.Usable.of_cutOff`: it is none that counts as missing.
* `Directory.detected_base`: a base is read from inside, but where it is cut off.
  `Directory.base_read_outside`: it is read from outside there.
-/

namespace CellVisor

/-- Outside the 256 bytes of a function every bit is set. -/
def Pci.ConfigSpace.Bounded (space : ConfigSpace) : Prop :=
  ∀ address (offset : UInt16), 0x100 ≤ offset.toNat → space address offset = 0xFFFFFFFF

theorem SimMachine.bounded_configRead (machine : SimMachine) :
    Pci.ConfigSpace.Bounded machine.configRead := by
  intro address offset houtside
  unfold configRead
  split
  · rename_i device _
    have hindex : 64 ≤ (offset / 4).toNat := by
      rw [UInt16.toNat_div, show (4 : UInt16).toNat = 4 from rfl]
      omega
    rw [Sim.Device.read, Vector.getElem?_eq_none hindex]
    rfl
  · rfl

namespace Controller

/-- The capability that holds the base is found so near to the end of the space that a dword of the
base is outside. -/
def CutOff (space : Pci.ConfigSpace) (address : Pci.Address) : Prop :=
  ∃ offset, (space.findCapability address 0x0F ()).outcome = .ok (some offset) ∧
    0xFC < offset.toNat + 8

section CutOff

variable {space : Pci.ConfigSpace} {address : Pci.Address} {offset : UInt8}

/-- A capability is found at a dword of the space, and not at its first. -/
theorem dword_of_findCapability
    (found : (space.findCapability address 0x0F ()).outcome = .ok (some offset)) :
    offset ≠ 0 ∧ offset.toNat % 4 = 0 := by
  obtain ⟨log, hreply⟩ := space.findCapability_eq address 0x0F ()
  rw [hreply] at found
  obtain ⟨-, n, -, hleads, rfl⟩ :=
    Pci.ConfigSpace.capability?_eq_some_iff.1 (Outcome.ok.inj found)
  exact ⟨hleads.linked n (Nat.le_refl n), Pci.ConfigSpace.entry_mod_four n⟩

theorem cutOff_iff (aligned : offset.toNat % 4 = 0) :
    0xFC < offset.toNat + 8 ↔ offset = 0xF8 ∨ offset = 0xFC := by
  have hlt := offset.toNat_lt
  rw [← UInt8.toNat_inj, ← UInt8.toNat_inj]
  simp only [UInt8.reduceToNat]
  omega

/-- The high dword of a base that is cut off is outside. -/
theorem le_base_of_cutOff (bounded : space.Bounded) (cutOff : 0xFC < offset.toNat + 8)
    (aligned : offset.toNat % 4 = 0) :
    0xFFFFFFFF00000000 ≤ baseAt space address offset := by
  have hoffset : (offset.toUInt16 + 8).toNat = offset.toNat + 8 := by
    have hlt := offset.toNat_lt
    rw [UInt16.toNat_add, UInt8.toNat_toUInt16, show (8 : UInt16).toNat = 8 from rfl]
    omega
  have hhigh : space address (offset.toUInt16 + 8) = 0xFFFFFFFF :=
    bounded address _ (by omega)
  rw [UInt64.le_iff_toNat_le, toNat_baseAt, hhigh]
  simp only [UInt64.reduceToNat, UInt32.reduceToNat, UInt32.size]
  omega

/-- So a controller with such a base can be used like any other. -/
theorem Usable.of_cutOff (bounded : space.Bounded) (hbus : address.bus = 0)
    (hdevice : address.device < 32) (hfunction : address.function < 8)
    (present : (space.identity? ⟨0, address.device, 0⟩).isSome = true)
    (shown : address.function = 0 ∨ space.isMultifunction ⟨0, address.device, 0⟩ = true)
    (known : ∃ identity, space.identity? address = some identity ∧
      identity.vendor = 0x1022 ∧ 0x1447 ≤ identity.device ∧ identity.device ≤ 0x1457)
    (cutOff : CutOff space address) :
    ∃ base, Usable space ⟨address, .amdVi, base⟩ := by
  obtain ⟨offset, found, hcut⟩ := cutOff
  have hle : 0xFFFFFFFF00000000 ≤ baseAt space address offset :=
    le_base_of_cutOff bounded hcut (dword_of_findCapability found).2
  refine ⟨baseAt space address offset, hbus, hdevice, hfunction, present, shown, known,
    ⟨offset, found, rfl⟩, fun hzero => ?_⟩
  dsimp only at hzero
  rw [hzero] at hle
  exact absurd hle (by decide)

end CutOff

end Controller

namespace Directory

/-- The base of a detected controller is made of the two dwords behind the header of its capability,
and these are inside the space of the function unless the capability is one of its last two dwords.
Where every bit outside the space is set, the base of a controller that is cut off in this way is in
the last 4 GiB, and so the controller is not passed over: it is detected, unless one is that has a
lesser address. -/
theorem detected_base (space : Pci.ConfigSpace) (directory : Directory) :
    let reply := detect space directory
    (∀ controller, reply.outcome = .ok controller →
      ∃ offset, (space.findCapability controller.address 0x0F ()).outcome = .ok (some offset) ∧
        controller.base =
          ((space controller.address (offset.toUInt16 + 8)).toUInt64 <<< 32) |||
            (space controller.address (offset.toUInt16 + 4) &&& 0xFFFFF000).toUInt64 ∧
        offset ≠ 0 ∧ offset.toNat % 4 = 0 ∧
        (offset.toNat + 8 ≤ 0xFC ∨ offset = 0xF8 ∨ offset = 0xFC)) ∧
    (space.Bounded →
      (∀ controller, reply.outcome = .ok controller →
        Controller.CutOff space controller.address → 0xFFFFFFFF00000000 ≤ controller.base) ∧
      ∀ address : Pci.Address, address.bus = 0 → address.device < 32 → address.function < 8 →
        (space.identity? ⟨0, address.device, 0⟩).isSome = true →
        (address.function = 0 ∨ space.isMultifunction ⟨0, address.device, 0⟩ = true) →
        (∃ identity, space.identity? address = some identity ∧
          identity.vendor = 0x1022 ∧ 0x1447 ≤ identity.device ∧ identity.device ≤ 0x1457) →
        Controller.CutOff space address →
        ∃ controller, reply.outcome = .ok controller ∧ controller.address ≤ address) := by
  intro reply
  have hok (controller : Controller) :
      reply.outcome = .ok controller ↔ scanned space = some controller :=
    outcome_detect_eq_ok_iff
  refine ⟨fun controller detected => ?read, fun bounded =>
    ⟨fun controller detected cutOff => ?outside, fun address hbus hdevice hfunction present shown
      known cutOff => ?counted⟩⟩
  case read =>
    obtain ⟨offset, found, hbase⟩ := (least_of_scanned ((hok controller).1 detected)).1.based
    obtain ⟨hnonzero, haligned⟩ := Controller.dword_of_findCapability found
    refine ⟨offset, found, hbase, hnonzero, haligned, ?_⟩
    rw [← Controller.cutOff_iff haligned]
    exact (Nat.lt_or_ge 0xFC (offset.toNat + 8)).symm
  case outside =>
    obtain ⟨offset, found, hbase⟩ := (least_of_scanned ((hok controller).1 detected)).1.based
    obtain ⟨other, hother, hcut⟩ := cutOff
    cases hother.symm.trans found
    rw [hbase]
    exact Controller.le_base_of_cutOff bounded hcut (Controller.dword_of_findCapability found).2
  case counted =>
    obtain ⟨base, husable⟩ :=
      Controller.Usable.of_cutOff bounded hbus hdevice hfunction present shown known cutOff
    cases hscan : scanned space with
    | none => exact (scanned_eq_none_iff.1 hscan _ husable).elim
    | some controller =>
      have hle := (least_of_scanned hscan).2 _ husable
      exact ⟨controller, (hok controller).2 hscan, hle⟩

/-- A known controller whose list leads to the last dword of its space. -/
def truncated : SimMachine :=
  [(0x04, 0x00100000), (0x34, 0xFC), (0xFC, 0x0F)].foldl
    (fun machine (offset, value) => machine.configWrite ⟨0, 2, 0⟩ offset value)
    ((SimMachine.ofCores 2).addDevice ⟨0, 2, 0⟩ (.ofIdentity 0x1022 0x1451 0x08))

theorem findCapability_truncated :
    (Pci.ConfigSpace.findCapability truncated.configRead ⟨0, 2, 0⟩ 0x0F ()).outcome =
      .ok (some 0xFC) := by
  decide +kernel

theorem detect_truncated :
    (detect truncated.configRead {}).outcome =
      .ok ⟨⟨0, 2, 0⟩, .amdVi, 0xFFFFFFFFFFFFF000⟩ := by
  decide +kernel

theorem detected_base_truncated :
    Pci.ConfigSpace.Bounded truncated.configRead ∧
      Controller.CutOff truncated.configRead ⟨0, 2, 0⟩ ∧
      ∃ controller, (detect truncated.configRead {}).outcome = .ok controller ∧
        controller.address ≤ ⟨0, 2, 0⟩ ∧ 0xFFFFFFFF00000000 ≤ controller.base := by
  have bounded := truncated.bounded_configRead
  have cutOff : Controller.CutOff truncated.configRead ⟨0, 2, 0⟩ :=
    ⟨0xFC, findCapability_truncated, by decide⟩
  obtain ⟨-, hbounded⟩ := detected_base truncated.configRead {}
  obtain ⟨houtside, hcounted⟩ := hbounded bounded
  obtain ⟨controller, detected, hle⟩ := hcounted ⟨0, 2, 0⟩ rfl (by decide) (by decide)
    (by decide +kernel) (.inl rfl) ⟨⟨0x1022, 0x1451, 0x08⟩, by decide +kernel, by decide⟩ cutOff
  cases detect_truncated.symm.trans detected
  exact ⟨bounded, cutOff, _, detected, hle, houtside _ detected cutOff⟩

/-- This controller is detected with all ones for its base, which is what the two dwords read
outside the space. -/
theorem base_read_outside :
    (detect truncated.configRead {}).outcome =
        .ok ⟨⟨0, 2, 0⟩, .amdVi, 0xFFFFFFFFFFFFF000⟩ ∧
      ∀ offset, (Pci.ConfigSpace.findCapability truncated.configRead ⟨0, 2, 0⟩ 0x0F ()).outcome =
          .ok (some offset) → ¬ offset.toNat + 8 ≤ 0xFC := by
  refine ⟨detect_truncated, fun offset found => ?_⟩
  cases findCapability_truncated.symm.trans found
  decide

end Directory
end CellVisor
