import CellVisor.Pci.Address
import CellVisor.Proofs.Bits

/-!
# CellVisor.Proofs.Pci.Encoding

The words for configuration access, as fields one behind the other.

* `toNat_configAddress`: shifting and masking puts every field in its place, whatever lies outside
  its bits.
* `fields_inj`, `fields_lt_fields_iff`: the words of functions that can exist tell these and their
  dwords apart, and are in their order.
* `configAddress_exact`: so are the words that are written, and their other bits never change.
-/

namespace CellVisor
namespace Pci
namespace Address

variable {a b : Address} {i j : UInt16}

/-- A set bit, seven clear ones, the bus, the low bits of device and function, the number of the
dword and two clear bits, the highest first. -/
def fields (address : Address) (offset : UInt16) : BitVec (1 + 7 + 8 + 5 + 3 + 6 + 2) :=
  1#1 ++ 0#7 ++ address.bus.toBitVec ++ address.device.toBitVec.setWidth 5 ++
    address.function.toBitVec.setWidth 3 ++ offset.toBitVec.extractLsb' 2 6 ++ 0#2

/-! ## Every field in its place -/

/-- The low bits of a byte, moved up inside the word. -/
theorem toNat_masked (byte : UInt8) {mask shift : UInt32} (width : Nat)
    (hmask : mask.toNat = 1 <<< width - 1) (small : shift.toNat < 32)
    (fits : width + shift.toNat ≤ 32) :
    ((byte.toUInt32 &&& mask) <<< shift).toNat = (byte.toNat % 1 <<< width) <<< shift.toNat := by
  have hand : (byte.toUInt32 &&& mask).toNat = byte.toNat % 1 <<< width := by
    rw [UInt32.toNat_and, hmask, Nat.one_shiftLeft, Nat.and_two_pow_sub_one_eq_mod,
      UInt8.toNat_toUInt32]
  have hlt := Nat.mod_lt byte.toNat (Nat.two_pow_pos width)
  rw [← hand]
  refine Word.toNat_shiftLeft_of_lt small ?_
  rw [hand, Nat.shiftLeft_eq, Nat.one_shiftLeft]
  calc byte.toNat % 2 ^ width * 2 ^ shift.toNat
    _ < 2 ^ width * 2 ^ shift.toNat := Nat.mul_lt_mul_of_pos_right hlt (Nat.two_pow_pos _)
    _ = 2 ^ (width + shift.toNat) := (Nat.pow_add 2 _ _).symm
    _ ≤ UInt32.size := Nat.pow_le_pow_right (by omega) fits

theorem toNat_configAddress (address : Address) (offset : UInt16) :
    (address.configAddress offset).toNat = (address.fields offset).toNat := by
  have hbus : (address.bus.toUInt32 <<< 16).toNat = address.bus.toNat <<< 16 := by
    refine Word.toNat_shiftLeft_of_lt (by decide) ?_
    have hlt := address.bus.toNat_lt
    show address.bus.toNat <<< 16 < 4294967296
    rw [Nat.shiftLeft_eq]
    omega
  have hdevice : ((address.device.toUInt32 &&& 0x1F) <<< 11).toNat =
      (address.device.toNat % 1 <<< 5) <<< 11 :=
    toNat_masked address.device 5 rfl (by decide) (by decide)
  have hfunction : ((address.function.toUInt32 &&& 0x07) <<< 8).toNat =
      (address.function.toNat % 1 <<< 3) <<< 8 :=
    toNat_masked address.function 3 rfl (by decide) (by decide)
  have hdword : (offset.toUInt32 &&& 0xFC).toNat = (offset.toNat >>> 2 % 1 <<< 6) <<< 2 :=
    Word.and_mask offset.toNat 2 6
  unfold configAddress fields
  rw [UInt32.toNat_or, UInt32.toNat_or, UInt32.toNat_or, UInt32.toNat_or, hbus, hdevice, hfunction,
    hdword]
  -- Distributing the shifts over the fields leaves each of them in its place on both sides.
  simp only [BitVec.toNat_append, BitVec.toNat_setWidth, BitVec.extractLsb'_toNat,
    Nat.shiftLeft_or_distrib, ← Nat.shiftLeft_add]
  simp

example : (⟨1, 2, 3⟩ : Address).configAddress 0x3D = 0x8001133C := by decide

theorem toBitVec_configAddress (address : Address) (offset : UInt16) :
    (address.configAddress offset).toBitVec = address.fields offset :=
  BitVec.eq_of_toNat_eq (toNat_configAddress address offset)

/-- The bits outside the fields are the same in every word. -/
theorem fixed_fields (address : Address) (offset : UInt16) :
    (address.fields offset).getLsbD 31 = true ∧
      (∀ bit, 24 ≤ bit ∧ bit ≤ 30 → (address.fields offset).getLsbD bit = false) ∧
      ∀ bit ≤ 1, (address.fields offset).getLsbD bit = false := by
  simp only [fields, BitVec.getLsbD_append]
  refine ⟨rfl, fun bit h => ?reserved, fun bit h => ?low⟩
  case reserved => grind
  case low => rw [if_pos (by omega), BitVec.getLsbD_zero]

/-! ## Comparing the fields -/

theorem eq_iff : a = b ↔ a.bus = b.bus ∧ a.device = b.device ∧ a.function = b.function := by
  cases a
  cases b
  exact iff_of_eq (mk.injEq ..)

theorem toNat_dword (h : i < 256) : (i.toBitVec.extractLsb' 2 6).toNat = (i / 4).toNat := by
  have hlt : i.toNat < 256 := UInt16.lt_iff_toNat_lt.1 h
  rw [BitVec.extractLsb'_toNat, Nat.shiftRight_eq_div_pow, UInt16.toNat_div]
  exact Nat.mod_eq_of_lt (Nat.div_lt_of_lt_mul hlt)

theorem dword_inj (hi : i < 256) (hj : j < 256) :
    i.toBitVec.extractLsb' 2 6 = j.toBitVec.extractLsb' 2 6 ↔ i / 4 = j / 4 := by
  rw [← BitVec.toNat_inj, toNat_dword hi, toNat_dword hj, UInt16.toNat_inj]

theorem dword_lt_iff (hi : i < 256) (hj : j < 256) :
    i.toBitVec.extractLsb' 2 6 < j.toBitVec.extractLsb' 2 6 ↔ i / 4 < j / 4 := by
  rw [BitVec.lt_def, toNat_dword hi, toNat_dword hj, UInt16.lt_iff_toNat_lt]

section Valid

variable (ha : a.device < 32 ∧ a.function < 8) (hb : b.device < 32 ∧ b.function < 8)
  (hi : i < 256) (hj : j < 256)

include ha hb hi hj

theorem fields_inj : a.fields i = b.fields j ↔ a = b ∧ i / 4 = j / 4 := by
  simp only [fields, Word.append_inj, true_and, and_true]
  rw [Word.setWidth_inj ha.1 hb.1, Word.setWidth_inj ha.2 hb.2, dword_inj hi hj, eq_iff]
  simp only [UInt8.toBitVec_inj, and_assoc]

theorem fields_lt_fields_iff : a.fields i < b.fields j ↔ a < b ∨ a = b ∧ i / 4 < j / 4 := by
  simp only [fields, Word.append_lt_append_iff, Word.append_inj, BitVec.lt_irrefl, false_or,
    true_and, and_false, or_false]
  rw [Word.setWidth_inj ha.1 hb.1, Word.setWidth_inj ha.2 hb.2, Word.setWidth_lt_iff ha.1 hb.1,
    Word.setWidth_lt_iff ha.2 hb.2, dword_lt_iff hi hj, eq_iff, lt_iff]
  simp only [UInt8.toBitVec_inj, UInt8.lt_iff_toBitVec_lt, and_or_left, or_assoc, and_assoc]

end Valid

/-- Of functions that can exist, two words are the same only for one function and offsets in one
dword, and they are in the order of bus, device and function, then of the dwords. Whatever the
numbers are, a word consists of their low bits in the places of these fields, above them a set bit
and seven clear ones and below them two clear bits: no field reaches into another. -/
theorem configAddress_exact (a b : Address) (i j : UInt16) :
    (a.device < 32 ∧ a.function < 8 → b.device < 32 ∧ b.function < 8 → i < 256 → j < 256 →
      (a.configAddress i = b.configAddress j ↔ a = b ∧ i / 4 = j / 4) ∧
        (a.configAddress i < b.configAddress j ↔
          (a.bus < b.bus ∨ a.bus = b.bus ∧
            (a.device < b.device ∨ a.device = b.device ∧ a.function < b.function)) ∨
          a = b ∧ i / 4 < j / 4)) ∧
      (a.configAddress i).toBitVec =
        1#1 ++ 0#7 ++ a.bus.toBitVec ++ a.device.toBitVec.setWidth 5 ++
          a.function.toBitVec.setWidth 3 ++ i.toBitVec.extractLsb' 2 6 ++ 0#2 ∧
      (a.configAddress i).toBitVec.getLsbD 31 = true ∧
      (∀ bit, 24 ≤ bit ∧ bit ≤ 30 → (a.configAddress i).toBitVec.getLsbD bit = false) ∧
      ∀ bit ≤ 1, (a.configAddress i).toBitVec.getLsbD bit = false := by
  refine ⟨fun ha hb hi hj => ⟨?same, ?order⟩, toBitVec_configAddress a i, ?fixed⟩
  case same =>
    rw [← UInt32.toNat_inj, toNat_configAddress, toNat_configAddress, BitVec.toNat_inj]
    exact fields_inj ha hb hi hj
  case order =>
    rw [UInt32.lt_iff_toNat_lt, toNat_configAddress, toNat_configAddress, ← BitVec.lt_def, ← lt_iff]
    exact fields_lt_fields_iff ha hb hi hj
  case fixed =>
    rw [toBitVec_configAddress]
    exact fixed_fields a i

/-- The last dword of a bus comes before the first of the next one, and its four bytes share a
word. -/
theorem configAddress_exact_neighbours :
    let last : Address := ⟨0, 31, 7⟩
    let first : Address := ⟨1, 0, 0⟩
    last.configAddress 0xFF < first.configAddress 0x00 ∧
      last.configAddress 0xFC = last.configAddress 0xFF := by
  intro last first
  have horder := ((configAddress_exact last first 0xFF 0x00).1
    (by decide) (by decide) (by decide) (by decide)).2
  have hsame := ((configAddress_exact last last 0xFC 0xFF).1
    (by decide) (by decide) (by decide) (by decide)).1
  exact ⟨horder.2 (.inl (.inl (by decide))), hsame.2 ⟨rfl, by decide⟩⟩

end Address
end Pci
end CellVisor
