import CellVisor.Memory.Extent
import CellVisor.Table

/-!
# CellVisor.Memory.Physical

Physical memory as a sparse map from addresses to bytes. Bytes that were never written are zero.

* `byteAt_write`: what a write does to every byte.
* `byteAt_copy_of_mem`, `byteAt_copy_of_not_mem`: what a copy between two ranges of the address
  space does to every byte, whether or not they overlap.
-/

namespace CellVisor

structure Physical where
  bytes : Table UInt64 UInt8 := {}
  deriving Repr, DecidableEq

namespace Physical

def byteAt (memory : Physical) (address : UInt64) : UInt8 := memory.bytes.getD address 0

def write (memory : Physical) (address : UInt64) (value : UInt8) : Physical :=
  ⟨memory.bytes.insert address value⟩

/-- The bytes that were written to an extent, each with its address. -/
def within (memory : Physical) (extent : Extent) : List (UInt64 × UInt8) :=
  memory.bytes.select extent.contains

/-- Copies `size` bytes. Those of the source are read first; then those of the target are removed,
and the ones read are put in their place. -/
def copy (memory : Physical) (target source size : UInt64) : Physical :=
  let read := memory.within ⟨source, size⟩
  let stale := memory.within ⟨target, size⟩
  let cleared := memory.bytes.eraseAll (stale.map Prod.fst)
  ⟨cleared.insertAll (read.map fun entry => (target + (entry.1 - source), entry.2))⟩

/-- Writes `bytes` one after the other from `address` on. -/
def writeList (memory : Physical) (address : UInt64) : List UInt8 → Physical
  | [] => memory
  | byte :: rest => (memory.write address byte).writeList (address + 1) rest

def readList (memory : Physical) (address : UInt64) (count : Nat) : List UInt8 :=
  (List.range count).map fun i => memory.byteAt (address + UInt64.ofNat i)

/-- The word at `address`, its least byte first. -/
def readWord (memory : Physical) (address : UInt64) : UInt32 :=
  (memory.readList address 4).foldr (fun byte word => word <<< 8 ||| byte.toUInt32) 0

/-- Writes a word, its least byte first. -/
def writeWord (memory : Physical) (address : UInt64) (word : UInt32) : Physical :=
  memory.writeList address
    [word.toUInt8, (word >>> 8).toUInt8, (word >>> 16).toUInt8, (word >>> 24).toUInt8]

@[simp] theorem byteAt_empty (address : UInt64) : ({} : Physical).byteAt address = 0 := rfl

theorem byteAt_write (memory : Physical) (written address : UInt64) (value : UInt8) :
    (memory.write written value).byteAt address =
      if address = written then value else memory.byteAt address :=
  Table.getD_insert ..

/-! ## Copies -/

theorem contains_iff_of_fits {base size : UInt64} (h : base.toNat + size.toNat < UInt64.size)
    (address : UInt64) :
    Extent.contains ⟨base, size⟩ address = true ↔
      base.toNat ≤ address.toNat ∧ address.toNat < base.toNat + size.toNat := by
  rw [Extent.contains_iff, Extent.toNat_stop]
  dsimp only
  omega

/-- The address that is as far from `target` as `address` is from `source`. -/
theorem toNat_moved (size : UInt64) {target source address : UInt64}
    (htarget : target.toNat + size.toNat < UInt64.size) (hle : source.toNat ≤ address.toNat)
    (hlt : address.toNat < source.toNat + size.toNat) :
    (target + (address - source)).toNat = target.toNat + (address.toNat - source.toNat) := by
  have hsum : target.toNat + (address.toNat - source.toNat) < UInt64.size := by omega
  rw [UInt64.toNat_add, UInt64.toNat_sub_of_le _ _ (UInt64.le_iff_toNat_le.2 hle),
    Nat.mod_eq_of_lt hsum]

section Copy

variable {memory : Physical} {target source size address : UInt64}
  (htarget : target.toNat + size.toNat < UInt64.size)
  (hsource : source.toNat + size.toNat < UInt64.size)

theorem byteAt_copy_eq (memory : Physical) (target source size address : UInt64) :
    (memory.copy target source size).byteAt address =
      ((((memory.within ⟨source, size⟩).map fun entry =>
          (target + (entry.1 - source), entry.2)).lookup address).or
        (if Extent.contains ⟨target, size⟩ address then none
          else memory.bytes.get? address)).getD 0 := by
  unfold copy byteAt Table.getD
  rw [Table.get?_insertAll, within, within, Table.get?_eraseAll_select]

include htarget hsource

/-- In the target a copy leaves the bytes of the source. -/
theorem byteAt_copy_of_mem
    (h : target.toNat ≤ address.toNat ∧ address.toNat < target.toNat + size.toNat) :
    (memory.copy target source size).byteAt address =
      memory.byteAt (source + (address - target)) := by
  have hfrom := toNat_moved size hsource h.1 h.2
  have hread : Extent.contains ⟨source, size⟩ (source + (address - target)) = true := by
    rw [contains_iff_of_fits hsource, hfrom]
    omega
  have hback : ∀ other, address = target + (other - source) ↔
      source + (address - target) = other := by
    intro other
    constructor
    · rintro rfl
      rw [UInt64.add_comm target, UInt64.add_sub_cancel, UInt64.add_comm, UInt64.sub_add_cancel]
    · rintro rfl
      rw [UInt64.add_comm source, UInt64.add_sub_cancel, UInt64.add_comm, UInt64.sub_add_cancel]
  rw [byteAt_copy_eq, if_pos ((contains_iff_of_fits htarget address).2 h), Option.or_none, within,
    Table.lookup_moved _ hread fun other _ => hback other]
  rfl

/-- Everywhere else it leaves what was there. -/
theorem byteAt_copy_of_not_mem
    (h : ¬ (target.toNat ≤ address.toNat ∧ address.toNat < target.toNat + size.toNat)) :
    (memory.copy target source size).byteAt address = memory.byteAt address := by
  have hmissed : ∀ other, Extent.contains ⟨source, size⟩ other = true →
      address ≠ target + (other - source) := by
    rintro other hother rfl
    rw [contains_iff_of_fits hsource] at hother
    rw [toNat_moved size htarget hother.1 hother.2] at h
    omega
  rw [byteAt_copy_eq, if_neg (mt (contains_iff_of_fits htarget address).1 h), within,
    Table.lookup_moved_eq_none _ hmissed, Option.none_or]
  rfl

end Copy

/-- One byte up, onto bytes that are still to be read. -/
example :
    ((({} : Physical).writeList 8 [1, 2, 3, 4]).copy 9 8 3).readList 8 4 = [1, 1, 2, 3] := by
  decide

end Physical
end CellVisor
