import CellVisor.Memory.Region

/-!
# CellVisor.Proofs.Memory.Overlap

When two ranges of addresses have one in common. At the end of the address space a range is cut off
before the last address, so a range may have fewer addresses than its size says, or none.

* `Extent.base_lt_stop_iff`: a range has addresses unless its size is zero or it starts at the last
  address.
* `Extent.exists_contains_iff`: ranges have an address in common if they have a size and overlap.
* `Region.overlaps_exact`: so regions with a size overlap if they share an address.
-/

namespace CellVisor

namespace Extent

variable {a b : Extent}

theorem overlaps_comm (a b : Extent) : a.overlaps b = b.overlaps a := Bool.and_comm _ _

theorem base_lt_stop_iff :
    a.base.toNat < a.stop.toNat ↔ 0 < a.size.toNat ∧ a.base.toNat < UInt64.size - 1 := by
  have hsize : UInt64.size = 2 ^ 64 := rfl
  rw [toNat_stop]
  omega

/-- What overlaps another range does not start at the last address, since no range ends behind
it. -/
theorem base_lt_stop_of_overlaps (h : a.overlaps b = true) (hsize : 0 < a.size.toNat) :
    a.base.toNat < a.stop.toNat := by
  have hbefore := ((overlaps_iff a b).1 h).1
  have hlast : b.stop.toNat ≤ UInt64.size - 1 := by
    rw [toNat_stop]
    exact Nat.min_le_right _ _
  exact base_lt_stop_iff.2 ⟨hsize, Nat.lt_of_lt_of_le hbefore hlast⟩

/-- The greater base is an address of both ranges, if they have one in common at all. A range
without a size may overlap another one and still has no address. -/
theorem exists_contains_iff :
    (∃ address, a.contains address = true ∧ b.contains address = true) ↔
      (0 < a.size.toNat ∧ 0 < b.size.toNat) ∧ a.overlaps b = true := by
  constructor
  · rintro ⟨address, ha, hb⟩
    rw [contains_iff] at ha hb
    have hfirst := base_lt_stop_iff.1 (Nat.lt_of_le_of_lt ha.1 ha.2)
    have hsecond := base_lt_stop_iff.1 (Nat.lt_of_le_of_lt hb.1 hb.2)
    refine ⟨⟨hfirst.1, hsecond.1⟩, (overlaps_iff a b).2 ?_⟩
    exact ⟨Nat.lt_of_le_of_lt ha.1 hb.2, Nat.lt_of_le_of_lt hb.1 ha.2⟩
  · rintro ⟨⟨ha, hb⟩, hoverlaps⟩
    have hfirst := base_lt_stop_of_overlaps hoverlaps ha
    have hsecond := base_lt_stop_of_overlaps ((overlaps_comm b a).trans hoverlaps) hb
    obtain ⟨hbefore, hafter⟩ := (overlaps_iff a b).1 hoverlaps
    rcases Nat.le_total a.base.toNat b.base.toNat with hle | hle
    · exact ⟨b.base, (contains_iff a b.base).2 ⟨hle, hafter⟩,
        (contains_iff b b.base).2 ⟨Nat.le_refl _, hsecond⟩⟩
    · exact ⟨a.base, (contains_iff a a.base).2 ⟨Nat.le_refl _, hfirst⟩,
        (contains_iff b a.base).2 ⟨hle, hbefore⟩⟩

end Extent

namespace Region

/-- Whether regions overlap does not depend on which of them is asked, and they do exactly if some
address belongs to both, wherever they start and however far their sizes reach. -/
theorem overlaps_exact (a b : Region) (ha : 0 < a.size) (hb : 0 < b.size) :
    a.overlaps b.toExtent = b.overlaps a.toExtent ∧
      (a.overlaps b.toExtent = true ↔
        ∃ address, a.contains address = true ∧ b.contains address = true) := by
  refine ⟨Extent.overlaps_comm _ _, ?_⟩
  rw [Extent.exists_contains_iff]
  exact (and_iff_right ⟨UInt64.lt_iff_toNat_lt.1 ha, UInt64.lt_iff_toNat_lt.1 hb⟩).symm

/-- Of three regions that reach past the end of the address space two share an address. The one
that starts at the last address has none. -/
theorem overlaps_exact_end :
    let wide : Region := ⟨⟨0xFFFFFFFFFFFF0000, 0x20000⟩, "wide", .cell .linux⟩
    let high : Region := ⟨⟨0xFFFFFFFFFFFFFFFE, 5⟩, "high", .cell .windows⟩
    let last : Region := ⟨⟨0xFFFFFFFFFFFFFFFF, 1⟩, "last", .hypervisor⟩
    (0 < wide.size ∧ 0 < high.size ∧ 0 < last.size) ∧
      (∃ address, wide.contains address = true ∧ high.contains address = true) ∧
      ¬ ∃ address, wide.contains address = true ∧ last.contains address = true := by
  intro wide high last
  have hsizes : 0 < wide.size ∧ 0 < high.size ∧ 0 < last.size := by decide
  have hhigh := (overlaps_exact wide high hsizes.1 hsizes.2.1).2
  have hlast := (overlaps_exact wide last hsizes.1 hsizes.2.2).2
  exact ⟨hsizes, hhigh.1 (by decide), mt hlast.2 (by decide)⟩

end Region
end CellVisor
