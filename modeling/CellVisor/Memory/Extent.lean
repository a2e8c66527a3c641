import CellVisor.Word

/-!
# CellVisor.Memory.Extent

Ranges of physical addresses, given by base and size and half-open. A range that would pass the end
of the address space stops there.

* `contains_iff`, `overlaps_iff`: what the two tests say in numbers.
-/

namespace CellVisor

def kib : UInt64 := 1024
def mib : UInt64 := 1024 * kib
def gib : UInt64 := 1024 * mib

/-- The addresses from `base` on, `size` of them. -/
structure Extent where
  base : UInt64
  size : UInt64
  deriving Repr, DecidableEq

namespace Extent

/-- One past the last address, at most the greatest address. -/
def stop (extent : Extent) : UInt64 := Word.addClamped extent.base extent.size

/-- Whether base and size add up to an address. -/
def fits (extent : Extent) : Bool := (Word.add? extent.base extent.size).isSome

def contains (extent : Extent) (address : UInt64) : Bool :=
  extent.base ≤ address && address < extent.stop

def overlaps (a b : Extent) : Bool := a.base < b.stop && b.base < a.stop

theorem toNat_stop (extent : Extent) :
    extent.stop.toNat = min (extent.base.toNat + extent.size.toNat) (UInt64.size - 1) :=
  Word.toNat_addClamped _ _

theorem contains_iff (extent : Extent) (address : UInt64) :
    extent.contains address = true ↔
      extent.base.toNat ≤ address.toNat ∧ address.toNat < extent.stop.toNat := by
  simp [contains, UInt64.le_iff_toNat_le, UInt64.lt_iff_toNat_lt]

theorem overlaps_iff (a b : Extent) :
    a.overlaps b = true ↔ a.base.toNat < b.stop.toNat ∧ b.base.toNat < a.stop.toNat := by
  simp [overlaps, UInt64.lt_iff_toNat_lt]

theorem fits_iff (extent : Extent) :
    extent.fits = true ↔ extent.base.toNat + extent.size.toNat < UInt64.size := by
  unfold fits
  cases h : Word.add? extent.base extent.size with
  | none =>
    have := Word.add?_eq_none_iff.1 h
    simp only [Option.isSome_none, Bool.false_eq_true, false_iff]
    omega
  | some stop =>
    have h1 := Word.toNat_add? h
    have h2 := stop.toNat_lt_size
    simp only [Option.isSome_some, true_iff]
    omega

end Extent
end CellVisor
