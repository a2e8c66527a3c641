/-!
# CellVisor.Cpu.CoreRange

Contiguous, half-open ranges of core identifiers.

* `mem_toList`: the cores of a range are the ones it contains.
* `length_toList`: there are as many as its size.
* `pairwise_toList`: they are listed in ascending order.
-/

namespace CellVisor

/-- The greatest number of cores that a machine may have. -/
def maxCores : Nat := 32

/-- The cores from `start` up to, but not including, `stop`. -/
structure CoreRange where
  start : UInt32
  stop : UInt32
  deriving Repr, DecidableEq

namespace CoreRange

/-- How many cores there are; a range that stops before it starts has none. -/
def size (cores : CoreRange) : UInt32 :=
  if cores.start ≤ cores.stop then cores.stop - cores.start else 0

def isEmpty (cores : CoreRange) : Bool := cores.size == 0

def contains (cores : CoreRange) (core : UInt32) : Bool :=
  cores.start ≤ core && core < cores.stop

/-- The first `count` cores, or all of them where there are fewer. -/
def take (cores : CoreRange) (count : Nat) : List UInt32 :=
  (List.range (min count cores.size.toNat)).map fun i => cores.start + UInt32.ofNat i

def toList (cores : CoreRange) : List UInt32 := cores.take cores.size.toNat

/-- The first and the last core, or `none` for an empty range. -/
def text (cores : CoreRange) : String :=
  if cores.isEmpty then "none" else s!"{cores.start}-{cores.stop - 1}"

instance : ToString CoreRange := ⟨text⟩

theorem toNat_size (cores : CoreRange) :
    cores.size.toNat = cores.stop.toNat - cores.start.toNat := by
  unfold size
  split
  · rename_i h
    rw [UInt32.toNat_sub_of_le _ _ h]
  · rename_i h
    rw [UInt32.le_iff_toNat_le] at h
    rw [UInt32.toNat_zero]
    omega

theorem isEmpty_iff (cores : CoreRange) : cores.isEmpty = true ↔ cores.stop ≤ cores.start := by
  rw [isEmpty, beq_iff_eq, ← UInt32.toNat_inj, toNat_size, UInt32.le_iff_toNat_le,
    UInt32.toNat_zero]
  omega

theorem contains_iff (cores : CoreRange) (core : UInt32) :
    cores.contains core = true ↔
      cores.start.toNat ≤ core.toNat ∧ core.toNat < cores.stop.toNat := by
  simp [contains, UInt32.le_iff_toNat_le, UInt32.lt_iff_toNat_lt]

theorem length_toList (cores : CoreRange) : cores.toList.length = cores.size.toNat := by
  simp [toList, take]

theorem mem_toList (cores : CoreRange) (core : UInt32) :
    core ∈ cores.toList ↔ cores.contains core = true := by
  have hstop := cores.stop.toNat_lt
  have hstart := cores.start.toNat_lt
  rw [contains_iff]
  simp only [toList, take, Nat.min_self, List.mem_map, List.mem_range, toNat_size]
  constructor
  · rintro ⟨i, hi, rfl⟩
    rw [UInt32.toNat_add, UInt32.toNat_ofNat', Nat.mod_eq_of_lt (a := i) (by omega),
      Nat.mod_eq_of_lt (by omega)]
    omega
  · intro h
    refine ⟨core.toNat - cores.start.toNat, by omega, ?_⟩
    apply UInt32.toNat.inj
    rw [UInt32.toNat_add, UInt32.toNat_ofNat',
      Nat.mod_eq_of_lt (a := core.toNat - cores.start.toNat) (by omega),
      Nat.mod_eq_of_lt (by omega)]
    omega

theorem pairwise_toList (cores : CoreRange) : cores.toList.Pairwise (· < ·) := by
  have hstop := cores.stop.toNat_lt
  have hsize := cores.toNat_size
  rw [toList, take, Nat.min_self, List.pairwise_map]
  refine List.pairwise_lt_range.imp_of_mem fun {i j} hi hj hlt => ?_
  rw [List.mem_range] at hi hj
  rw [UInt32.lt_iff_toNat_lt, UInt32.toNat_add, UInt32.toNat_add, UInt32.toNat_ofNat',
    UInt32.toNat_ofNat', Nat.mod_eq_of_lt (a := i) (by omega), Nat.mod_eq_of_lt (a := j) (by omega),
    Nat.mod_eq_of_lt (by omega), Nat.mod_eq_of_lt (by omega)]
  omega

theorem nodup_toList (cores : CoreRange) : cores.toList.Nodup :=
  cores.pairwise_toList.imp fun h => UInt32.ne_of_lt h

end CoreRange
end CellVisor
