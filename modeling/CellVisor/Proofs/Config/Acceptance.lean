import CellVisor.Proofs.Config.Layout

/-!
# CellVisor.Proofs.Config.Acceptance

Which configurations `Config.validate` accepts. It adds with words that are checked in one place and
clamped in another, and compares each range with the later ones only; what it accepts is said here
in numbers, and of any two parts.

* `apart_iff_disjoint`: ranges with addresses are apart when they have none in common.
* `validate_eq_ok_iff`: a configuration is accepted exactly when it is admissible.
-/

namespace CellVisor

namespace Extent

/-- Of two ranges that are not apart, the greater base belongs to both. -/
theorem apart_iff_disjoint {a b : Extent} (ha : 0 < a.size.toNat) (hb : 0 < b.size.toNat) :
    a.Apart b ↔ ∀ address, ¬ (a.Covers address ∧ b.Covers address) := by
  refine ⟨fun h _ hboth => h.not_covers hboth.1 hboth.2, fun h => ?_⟩
  have hfirst := h a.base
  have hsecond := h b.base
  unfold Covers at hfirst hsecond
  unfold Apart
  omega

end Extent

namespace Config

/-- What a configuration is accepted for. Sums are those of the numbers: none of them wraps, and
none is clamped. -/
structure Admissible (config : Config) : Prop where
  hypervisor_pos : 0 < config.hypervisor.size.toNat
  memory_pos : ∀ id, 0 < (config.cells.get id).memory.size.toNat
  store_large : ∀ id,
    (config.cells.get id).memory.size.toNat ≤ (config.cells.get id).store.size.toNat
  total : config.cells.linux.memory.size.toNat + config.cells.windows.memory.size.toNat =
    config.guestMemory.toNat
  ends : ∀ holding,
    (config.extentOf holding).base.toNat + (config.extentOf holding).size.toNat ≤ UInt64.size - 1
  disjoint : ∀ a b, a ≠ b → ∀ address,
    ¬ ((config.extentOf a).Covers address ∧ (config.extentOf b).Covers address)
  blockSize : config.blockSize.toNat.isPowerOfTwo
  timeout : config.freezeTimeout ≠ 0
  cores : config.linuxCores ≠ some 0

section Parts

variable {config : Config}

theorem size_pos (hypervisor : 0 < config.hypervisor.size.toNat)
    (memory : ∀ id, 0 < (config.cells.get id).memory.size.toNat)
    (store : ∀ id,
      (config.cells.get id).memory.size.toNat ≤ (config.cells.get id).store.size.toNat)
    (holding : Holding) : 0 < (config.extentOf holding).size.toNat := by
  cases holding with
  | hypervisor => exact hypervisor
  | memory id => exact memory id
  | store id => exact Nat.lt_of_lt_of_le (memory id) (store id)

/-- The sizes of the memories pass one after the other when they add up to the guest memory. -/
theorem cover_eq_guestMemory :
    (∃ covered, cover 0 config.cells.linux = .ok covered ∧
        cover covered config.cells.windows = .ok config.guestMemory) ↔
      (∀ id, 0 < (config.cells.get id).memory.size.toNat) ∧
        (∀ id,
          (config.cells.get id).memory.size.toNat ≤ (config.cells.get id).store.size.toNat) ∧
        config.cells.linux.memory.size.toNat + config.cells.windows.memory.size.toNat =
          config.guestMemory.toNat := by
  simp only [cover_eq_ok]
  constructor
  · rintro ⟨covered, ⟨hlinux, hlinuxStore, hcovered⟩, hwindows, hwindowsStore, htotal⟩
    rw [UInt64.toNat_zero, Nat.zero_add] at hcovered
    rw [← hcovered] at htotal
    exact ⟨fun id => by cases id <;> assumption, fun id => by cases id <;> assumption, htotal⟩
  · rintro ⟨hmemory, hstore, htotal⟩
    refine ⟨config.cells.linux.memory.size, ⟨hmemory .linux, hstore .linux, ?_⟩,
      hmemory .windows, hstore .windows, htotal⟩
    rw [UInt64.toNat_zero, Nat.zero_add]

end Parts

/-- A configuration is accepted exactly when its private region and its cells have memory, the
stores can hold it, the cells add up to the guest memory, every part ends inside the address space,
no address belongs to two parts, and blocks, timeout and cores are of use. -/
theorem validate_eq_ok_iff (config : Config) : config.validate = .ok () ↔ config.Admissible := by
  rw [validate_eq_ok, cover_eq_guestMemory, checkExtents_extents, Word.ne_zero_iff,
    Word.isPowerOfTwo_iff]
  constructor
  · rintro ⟨hypervisor, ⟨memory, store, total⟩, ⟨fits, apart⟩, block, timeout, cores⟩
    have pos := size_pos hypervisor memory store
    exact {
      hypervisor_pos := hypervisor
      memory_pos := memory
      store_large := store
      total := total
      ends := fun holding => Nat.le_sub_one_of_lt ((Extent.fits_iff _).1 (fits holding))
      disjoint := fun a b hne => (Extent.apart_iff_disjoint (pos a) (pos b)).1 (apart a b hne)
      blockSize := block
      timeout := timeout
      cores := cores }
  · intro h
    have pos := size_pos h.hypervisor_pos h.memory_pos h.store_large
    refine ⟨h.hypervisor_pos, ⟨h.memory_pos, h.store_large, h.total⟩, ⟨fun holding => ?_, ?_⟩,
      h.blockSize, h.timeout, h.cores⟩
    · exact (Extent.fits_iff _).2 (Nat.lt_of_le_sub_one (by decide) (h.ends holding))
    · exact fun a b hne => (Extent.apart_iff_disjoint (pos a) (pos b)).2 (h.disjoint a b hne)

end Config
end CellVisor
