import CellVisor.Pci.ConfigSpace

/-!
# CellVisor.Proofs.Pci.Enumeration

The walk over the functions of the buses, whatever the configuration space holds.

* `identity?_eq_some_iff`, `isMultifunction_iff`: what the dwords of a function say of it.
* `mem_busFunctions`, `mem_functions`: which functions are looked at, and which come of it.
* `pairwise_functions`: they come in the order of their addresses, so none comes twice.
* `functions_exact`: all of it said of the dwords.
-/

namespace CellVisor
namespace Pci

/-- The numbers below `limit`, as bytes. -/
theorem exists_ofNat_eq {limit : Nat} (hlimit : limit ≤ 256) {byte : UInt8} :
    (∃ n < limit, UInt8.ofNat n = byte) ↔ byte.toNat < limit := by
  have hsize : UInt8.size = 256 := rfl
  constructor
  · rintro ⟨n, hn, rfl⟩
    rw [UInt8.toNat_ofNat_of_lt' (by omega)]
    exact hn
  · exact fun h => ⟨byte.toNat, h, UInt8.ofNat_toNat⟩

theorem ofNat_lt_ofNat {m n : Nat} (h : m < n) (hn : n < 256) : UInt8.ofNat m < UInt8.ofNat n := by
  have hsize : UInt8.size = 256 := rfl
  rw [UInt8.lt_iff_toNat_lt, UInt8.toNat_ofNat_of_lt' (by omega),
    UInt8.toNat_ofNat_of_lt' (by omega)]
  exact h

/-- Bytes that are counted through come in their order. -/
theorem pairwise_range_ofNat (limit : Nat) (hlimit : limit ≤ 256) :
    (List.range limit).Pairwise fun m n => UInt8.ofNat m < UInt8.ofNat n := by
  refine List.pairwise_lt_range.imp_of_mem fun _ hn h => ofNat_lt_ofNat h ?_
  exact Nat.lt_of_lt_of_le (List.mem_range.1 hn) hlimit

namespace ConfigSpace

variable {space : ConfigSpace} {bus device : UInt8} {address : Address}

/-! ## What is there -/

/-- The vendor of a function, in the low half of its first dword, is not that of an empty slot. -/
def IsPresent (space : ConfigSpace) (address : Address) : Prop :=
  (space address 0x00).toNat % 65536 ≠ 0 ∧ (space address 0x00).toNat % 65536 ≠ 0xFFFF

/-- Bit 23 of the dword at 0x0C is set: the device has more functions than this one. -/
def AnnouncesMore (space : ConfigSpace) (address : Address) : Prop :=
  (space address 0x0C).toBitVec.getLsbD 23 = true

theorem isPresent_iff :
    space.IsPresent address ↔
      ¬ ((space address 0x00).toUInt16 = 0xFFFF ∨ (space address 0x00).toUInt16 = 0) := by
  rw [not_or, and_comm, ← UInt16.toNat_inj, ← UInt16.toNat_inj, UInt32.toNat_toUInt16]
  rfl

theorem isSome_identity?_iff :
    (space.identity? address).isSome = true ↔ space.IsPresent address := by
  rw [isPresent_iff, identity?]
  split <;> simp [*]

/-- A function that is present has the identity that its dwords at 0x00 and 0x08 give. -/
theorem identity?_eq_some_iff {identity : Identity} :
    space.identity? address = some identity ↔
      space.IsPresent address ∧ identity.vendor.toNat = (space address 0x00).toNat % 65536 ∧
        identity.device.toNat = (space address 0x00).toNat / 65536 ∧
        identity.baseClass.toNat = (space address 0x08).toNat / 16777216 := by
  have hids := (space address 0x00).toNat_lt
  have hclass := (space address 0x08).toNat_lt
  have hdevice : (space address 0x00 >>> 16).toUInt16.toNat =
      (space address 0x00).toNat / 65536 := by
    rw [UInt32.toNat_toUInt16, UInt32.toNat_shiftRight, Nat.shiftRight_eq_div_pow,
      show (16 : UInt32).toNat % 32 = 16 from rfl]
    exact Nat.mod_eq_of_lt (by omega)
  have hbase : (space address 0x08 >>> 24).toUInt8.toNat =
      (space address 0x08).toNat / 16777216 := by
    rw [UInt32.toNat_toUInt8, UInt32.toNat_shiftRight, Nat.shiftRight_eq_div_pow,
      show (24 : UInt32).toNat % 32 = 24 from rfl]
    exact Nat.mod_eq_of_lt (by omega)
  obtain ⟨vendor, device, baseClass⟩ := identity
  rw [isPresent_iff, ← hdevice, ← hbase, ← UInt32.toNat_toUInt16]
  unfold identity?
  dsimp only
  split
  · rename_i hempty
    simp only [reduceCtorEq, false_iff]
    exact fun h => h.1 hempty
  · rename_i hfilled
    rw [Option.some.injEq, Identity.mk.injEq, UInt16.toNat_inj, UInt16.toNat_inj, UInt8.toNat_inj,
      eq_comm, eq_comm (b := device), eq_comm (b := baseClass)]
    exact ⟨fun h => ⟨hfilled, h⟩, And.right⟩

theorem isMultifunction_iff :
    space.isMultifunction address = true ↔ space.AnnouncesMore address := by
  have hmask : (0x00800000 : UInt32).toBitVec = BitVec.twoPow 32 23 := rfl
  unfold isMultifunction AnnouncesMore
  rw [decide_eq_true_iff, ne_eq, ← UInt32.toBitVec_inj, UInt32.toBitVec_and, hmask,
    BitVec.and_twoPow]
  cases (space address 0x0C).toBitVec.getLsbD 23 with
  | true => exact iff_of_true (by decide) rfl
  | false => exact iff_of_false (not_not_intro rfl) Bool.false_ne_true

/-! ## What is looked at -/

theorem mem_slotFunctions :
    address ∈ space.slotFunctions bus device ↔
      address.bus = bus ∧ address.device = device ∧ address.function.toNat < 8 ∧
        (address.function = 0 ∨ space.isMultifunction ⟨bus, device, 0⟩ = true) := by
  obtain ⟨b, d, f⟩ := address
  unfold slotFunctions
  split
  · rename_i hmulti
    simp only [List.mem_map, List.mem_range, Address.mk.injEq, hmulti, or_true, and_true,
      ← exists_ofNat_eq (show 8 ≤ 256 by omega)]
    grind
  · rename_i hsingle
    simp only [List.mem_singleton, Address.mk.injEq]
    constructor
    · rintro ⟨hb, hd, rfl⟩
      exact ⟨hb, hd, by decide, .inl rfl⟩
    · rintro ⟨hb, hd, -, hf⟩
      exact ⟨hb, hd, hf.resolve_right hsingle⟩

/-- A function is looked at where function 0 of its device is present, if it is that one or if that
one announces more. -/
theorem mem_busFunctions :
    address ∈ space.busFunctions bus ↔
      address.bus = bus ∧ address.isValid = true ∧
        (space.identity? ⟨bus, address.device, 0⟩).isSome = true ∧
        (address.function = 0 ∨ space.isMultifunction ⟨bus, address.device, 0⟩ = true) := by
  have hvalid : address.isValid = true ↔
      address.device.toNat < 32 ∧ address.function.toNat < 8 := by
    simp [Address.isValid, UInt8.lt_iff_toNat_lt]
  unfold busFunctions
  rw [hvalid, ← exists_ofNat_eq (show 32 ≤ 256 by omega)]
  simp only [List.mem_flatMap, List.mem_range, List.mem_ite_nil_right, mem_slotFunctions]
  constructor
  · rintro ⟨n, hn, hpresent, hbus, hdevice, hfunction, hshown⟩
    rw [← hdevice] at hpresent hshown
    exact ⟨hbus, ⟨⟨n, hn, hdevice.symm⟩, hfunction⟩, hpresent, hshown⟩
  · rintro ⟨hbus, ⟨⟨n, hn, hdevice⟩, hfunction⟩, hpresent, hshown⟩
    rw [← hdevice] at hpresent hshown
    exact ⟨n, hn, hpresent, hbus, hdevice.symm, hfunction, hshown⟩

/-- Of the functions that are looked at those come that are present, each with its identity. -/
theorem mem_functions {identity : Identity} :
    (address, identity) ∈ space.functions ↔
      address ∈ space.busFunctions address.bus ∧ space.identity? address = some identity := by
  unfold functions
  simp only [List.mem_flatMap, List.mem_range, List.mem_filterMap, Option.map_eq_some_iff,
    Prod.mk.injEq]
  constructor
  · rintro ⟨n, hn, other, hother, found, hfound, rfl, rfl⟩
    rw [(mem_busFunctions.1 hother).1]
    exact ⟨hother, hfound⟩
  · rintro ⟨hmem, hfound⟩
    obtain ⟨n, hn, hbus⟩ := (exists_ofNat_eq (Nat.le_refl 256)).2 address.bus.toNat_lt
    rw [← hbus] at hmem
    exact ⟨n, hn, address, hmem, identity, hfound, rfl, rfl⟩

theorem mem_map_functions :
    address ∈ space.functions.map Prod.fst ↔
      address ∈ space.busFunctions address.bus ∧ space.IsPresent address := by
  rw [← isSome_identity?_iff, Option.isSome_iff_exists, List.mem_map]
  constructor
  · rintro ⟨⟨_, identity⟩, hmem, rfl⟩
    obtain ⟨hlooked, hidentity⟩ := mem_functions.1 hmem
    exact ⟨hlooked, identity, hidentity⟩
  · rintro ⟨hlooked, identity, hidentity⟩
    exact ⟨(address, identity), mem_functions.2 ⟨hlooked, hidentity⟩, rfl⟩

/-! ## In which order -/

theorem pairwise_slotFunctions : (space.slotFunctions bus device).Pairwise (· < ·) := by
  unfold slotFunctions
  split
  · rw [List.pairwise_map]
    refine (pairwise_range_ofNat 8 (by omega)).imp fun h => ?_
    exact Address.lt_iff.2 (.inr ⟨rfl, .inr ⟨rfl, h⟩⟩)
  · exact List.pairwise_singleton _ _

theorem pairwise_busFunctions : (space.busFunctions bus).Pairwise (· < ·) := by
  unfold busFunctions
  rw [List.pairwise_flatMap]
  constructor
  · intro device _
    split
    · exact pairwise_slotFunctions
    · exact List.Pairwise.nil
  · refine (pairwise_range_ofNat 32 (by omega)).imp fun h first hfirst second hsecond => ?_
    obtain ⟨hbus, hdevice, -⟩ := mem_slotFunctions.1 (List.mem_ite_nil_right.1 hfirst).2
    obtain ⟨hbus', hdevice', -⟩ := mem_slotFunctions.1 (List.mem_ite_nil_right.1 hsecond).2
    refine Address.lt_iff.2 (.inr ⟨hbus.trans hbus'.symm, .inl ?_⟩)
    rw [hdevice, hdevice']
    exact h

/-- The functions come in the order of bus, device and function. -/
theorem pairwise_functions : (space.functions.map Prod.fst).Pairwise (· < ·) := by
  unfold functions
  rw [List.pairwise_map, List.pairwise_flatMap]
  simp only [List.pairwise_filterMap, List.mem_filterMap, Option.map_eq_some_iff]
  constructor
  · refine fun bus _ => pairwise_busFunctions.imp ?_
    rintro first second h _ ⟨_, -, rfl⟩ _ ⟨_, -, rfl⟩
    exact h
  · refine (pairwise_range_ofNat 256 (by omega)).imp ?_
    rintro m n h _ ⟨first, hfirst, _, -, rfl⟩ _ ⟨second, hsecond, _, -, rfl⟩
    refine Address.lt_iff.2 (.inl ?_)
    rw [(mem_busFunctions.1 hfirst).1, (mem_busFunctions.1 hsecond).1]
    exact h

theorem nodup_functions : (space.functions.map Prod.fst).Nodup := by
  refine pairwise_functions.imp ?_
  rintro address _ h rfl
  exact Nat.lt_irrefl address.rank h

theorem isValid_of_mem_functions (h : address ∈ space.functions.map Prod.fst) :
    address.isValid = true :=
  (mem_busFunctions.1 (mem_map_functions.1 h).1).2.1

/-- Whatever the configuration space holds, the functions come one after the other in the order of
bus, device and function, so none comes twice. A function comes exactly if it can exist, function 0
of its device is present, and it is that one, or that one announces more and it is present itself.
It comes with the identity that is read at its address: vendor and device from the halves of its
first dword, and the base class from the top byte of the dword at 8. -/
theorem functions_exact (space : ConfigSpace) :
    ((space.functions.map Prod.fst).Pairwise fun a b =>
      a.bus < b.bus ∨ a.bus = b.bus ∧
        (a.device < b.device ∨ a.device = b.device ∧ a.function < b.function)) ∧
    (∀ bus device function, (⟨bus, device, function⟩ : Address) ∈ space.functions.map Prod.fst ↔
      device < 32 ∧ function < 8 ∧ space.IsPresent ⟨bus, device, 0⟩ ∧
        (function = 0 ∨
          space.AnnouncesMore ⟨bus, device, 0⟩ ∧ space.IsPresent ⟨bus, device, function⟩)) ∧
    ∀ address identity, (address, identity) ∈ space.functions →
      space.identity? address = some identity ∧
        identity.vendor.toNat = (space address 0x00).toNat % 65536 ∧
        identity.device.toNat = (space address 0x00).toNat / 65536 ∧
        identity.baseClass.toNat = (space address 0x08).toNat / 16777216 := by
  refine ⟨pairwise_functions.imp Address.lt_iff.1, fun bus device function => ?which,
    fun address identity hmem => ?identity⟩
  case which =>
    have hvalid : (⟨bus, device, function⟩ : Address).isValid = true ↔
        device < 32 ∧ function < 8 := by
      simp [Address.isValid]
    rw [mem_map_functions, mem_busFunctions, hvalid, isSome_identity?_iff, isMultifunction_iff]
    dsimp only
    constructor
    · rintro ⟨⟨-, ⟨hdevice, hfunction⟩, hfirst, hshown⟩, hpresent⟩
      exact ⟨hdevice, hfunction, hfirst, hshown.imp_right fun hmore => ⟨hmore, hpresent⟩⟩
    · rintro ⟨hdevice, hfunction, hfirst, rfl | ⟨hmore, hpresent⟩⟩
      · exact ⟨⟨rfl, ⟨hdevice, hfunction⟩, hfirst, .inl rfl⟩, hfirst⟩
      · exact ⟨⟨rfl, ⟨hdevice, hfunction⟩, hfirst, .inr hmore⟩, hpresent⟩
  case identity =>
    have hidentity := (mem_functions.1 hmem).2
    exact ⟨hidentity, (identity?_eq_some_iff.1 hidentity).2⟩

end ConfigSpace
end Pci
end CellVisor
