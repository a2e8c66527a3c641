import CellVisor.Text.Hex

/-!
# CellVisor.Pci.Address

Addresses of PCI functions, their order and their encoding for configuration access.
-/

namespace CellVisor
namespace Pci

/-- Bus, device and function. A bus has devices 0 to 31 with functions 0 to 7 each. -/
structure Address where
  bus : UInt8
  device : UInt8
  function : UInt8
  deriving Repr, DecidableEq

namespace Address

/-- The place of an address in the order by bus, then device, then function. -/
def rank (address : Address) : Nat :=
  (address.bus.toNat * 256 + address.device.toNat) * 256 + address.function.toNat

instance : LT Address := ⟨fun a b => a.rank < b.rank⟩
instance : LE Address := ⟨fun a b => a.rank ≤ b.rank⟩

instance (a b : Address) : Decidable (a < b) := inferInstanceAs (Decidable (a.rank < b.rank))
instance (a b : Address) : Decidable (a ≤ b) := inferInstanceAs (Decidable (a.rank ≤ b.rank))

/-- Whether such a function can exist on a bus. -/
def isValid (address : Address) : Bool := address.device < 32 && address.function < 8

/-- The word that selects the dword with `offset` of this function for configuration access: bit 31,
then bus, device, function and dword in fields of 8, 5, 3 and 6 bits above two clear bits. -/
def configAddress (address : Address) (offset : UInt16) : UInt32 :=
  (0x80000000 : UInt32)
    ||| (address.bus.toUInt32 <<< 16)
    ||| ((address.device.toUInt32 &&& 0x1F) <<< 11)
    ||| ((address.function.toUInt32 &&& 0x07) <<< 8)
    ||| (offset.toUInt32 &&& 0xFC)

def text (address : Address) : String :=
  Hex.padded 2 address.bus.toNat ++ ":" ++ Hex.padded 2 address.device.toNat ++ "." ++
    toString address.function

instance : ToString Address := ⟨text⟩

def sort (addresses : List Address) : List Address := addresses.mergeSort fun a b => a ≤ b

theorem rank_inj {a b : Address} : a.rank = b.rank ↔ a = b := by
  constructor
  · intro h
    obtain ⟨ab, ad, af⟩ := a
    obtain ⟨bb, bd, bf⟩ := b
    have h1 := ad.toNat_lt
    have h2 := af.toNat_lt
    have h3 := bd.toNat_lt
    have h4 := bf.toNat_lt
    simp only [rank] at h
    rw [mk.injEq, ← UInt8.toNat_inj, ← UInt8.toNat_inj, ← UInt8.toNat_inj]
    omega
  · rintro rfl
    rfl

/-- The order compares the bus first, the device next and the function last. -/
theorem lt_iff {a b : Address} :
    a < b ↔ a.bus < b.bus ∨ a.bus = b.bus ∧
      (a.device < b.device ∨ a.device = b.device ∧ a.function < b.function) := by
  have h1 := a.device.toNat_lt
  have h2 := a.function.toNat_lt
  have h3 := b.device.toNat_lt
  have h4 := b.function.toNat_lt
  show a.rank < b.rank ↔ _
  simp only [rank, UInt8.lt_iff_toNat_lt, ← UInt8.toNat_inj]
  omega

end Address
end Pci
end CellVisor
