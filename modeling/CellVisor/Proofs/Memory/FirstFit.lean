import Mathlib.Order.Bounds.Basic
import CellVisor.Proofs.Memory.Bump

/-!
# CellVisor.Proofs.Memory.FirstFit

Where an allocator places a block, measured against the multiples of its alignment, which do not end
with the words. The first of them that does not lie before the cursor is the one to try: if a block
does not fit there it fits nowhere.

* `alignUp?_eq_some_iff`, `alignUp?_eq_none_iff`: rounding up gives the first multiple, and fails
  only where that is the end of the address space.
* `place?_eq_none_iff`: nothing is placed only where no multiple has room behind it.
* `first_fit`: how a request is answered, after any run.
-/

namespace CellVisor
namespace Bump

/-- The multiples of `align` from `address` on. -/
def multiples (align address : UInt64) : Set Nat :=
  {base | align.toNat ∣ base ∧ address.toNat ≤ base}

section Rounding

variable {address align : UInt64}

/-- Two multiples are an alignment apart, so there is none between the address and one that is less
than that behind it. -/
theorem isLeast_of_near {base : Nat} (multiple : align.toNat ∣ base) (behind : address.toNat ≤ base)
    (near : base < address.toNat + align.toNat) : IsLeast (multiples align address) base := by
  refine ⟨⟨multiple, behind⟩, fun other hother => ?_⟩
  by_contra hbelow
  have hgap := Nat.le_of_dvd (by omega) (Nat.dvd_sub multiple hother.1)
  have hbehind := hother.2
  omega

theorem isLeast_of_alignUp? (power : Word.isPowerOfTwo align = true) {base : UInt64}
    (h : alignUp? address align = some base) : IsLeast (multiples align address) base.toNat := by
  obtain ⟨hle, hlt, hmod⟩ := alignUp?_eq_some power h
  exact isLeast_of_near (Nat.dvd_of_mod_eq_zero hmod) hle hlt

/-- Rounding up leaves the words only where the words end. -/
theorem isLeast_size_of_alignUp? (power : Word.isPowerOfTwo align = true)
    (h : alignUp? address align = none) : IsLeast (multiples align address) UInt64.size := by
  have hpos := Word.pos_of_isPowerOfTwo power
  have hend := address.toNat_lt_size
  unfold alignUp? at h
  split at h
  · cases h
  · have hsum := Word.add?_eq_none_iff.1 (Option.map_eq_none_iff.1 h)
    rw [Word.toNat_pred_of_isPowerOfTwo power] at hsum
    exact isLeast_of_near (Word.dvd_size_of_isPowerOfTwo power) (Nat.le_of_lt hend) (by omega)

theorem alignUp?_eq_some_iff (power : Word.isPowerOfTwo align = true) {base : UInt64} :
    alignUp? address align = some base ↔ IsLeast (multiples align address) base.toNat := by
  refine ⟨isLeast_of_alignUp? power, fun hleast => ?_⟩
  cases h : alignUp? address align with
  | none =>
    have hsame := (isLeast_size_of_alignUp? power h).unique hleast
    exact absurd base.toNat_lt_size (by omega)
  | some other =>
    have hsame := (isLeast_of_alignUp? power h).unique hleast
    rw [UInt64.toNat_inj.1 hsame]

theorem alignUp?_eq_none_iff (power : Word.isPowerOfTwo align = true) :
    alignUp? address align = none ↔ IsLeast (multiples align address) UInt64.size := by
  refine ⟨isLeast_size_of_alignUp? power, fun hleast => ?_⟩
  cases h : alignUp? address align with
  | none => rfl
  | some base =>
    have hsame := (isLeast_of_alignUp? power h).unique hleast
    exact absurd base.toNat_lt_size (by omega)

theorem exists_isLeast_multiples (power : Word.isPowerOfTwo align = true) (address : UInt64) :
    ∃ first, IsLeast (multiples align address) first := by
  cases h : alignUp? address align with
  | none => exact ⟨_, (alignUp?_eq_none_iff power).1 h⟩
  | some base => exact ⟨_, (alignUp?_eq_some_iff power).1 h⟩

end Rounding

section Placing

variable {bump : Bump} {size align : UInt64}

theorem place?_of_room (power : Word.isPowerOfTwo align = true) {first : Nat}
    (hleast : IsLeast (multiples align bump.cursor) first)
    (room : first + size.toNat ≤ bump.stop.toNat) :
    ∃ base next : UInt64, bump.place? size align = some (base, next) ∧ base.toNat = first ∧
      next.toNat = first + size.toNat := by
  have hstop := bump.stop.toNat_lt_size
  have hbase : (UInt64.ofNat first).toNat = first := UInt64.toNat_ofNat_of_lt' (by omega)
  have hnext : (UInt64.ofNat (first + size.toNat)).toNat = first + size.toNat :=
    UInt64.toNat_ofNat_of_lt' (by omega)
  refine ⟨UInt64.ofNat first, UInt64.ofNat (first + size.toNat), ?_, hbase, hnext⟩
  rw [place?_eq_some_iff, alignUp?_eq_some_iff power, hbase, hnext, UInt64.le_iff_toNat_le, hnext]
  exact ⟨hleast, rfl, room⟩

/-- Nothing is placed only where no multiple of the alignment has room behind it. -/
theorem place?_eq_none_iff (power : Word.isPowerOfTwo align = true) :
    bump.place? size align = none ↔
      ∀ base ∈ multiples align bump.cursor, bump.stop.toNat < base + size.toNat := by
  constructor
  · intro full base hbase
    obtain ⟨first, hleast⟩ := exists_isLeast_multiples power bump.cursor
    have hfirst := hleast.2 hbase
    by_contra hover
    have hroom : first + size.toNat ≤ bump.stop.toNat := by omega
    obtain ⟨_, _, hplace, -⟩ := place?_of_room power hleast hroom
    cases full.symm.trans hplace
  · intro hfull
    cases h : bump.place? size align with
    | none => rfl
    | some place =>
      obtain ⟨hbase, hnext, hstop⟩ := place?_eq_some_iff.1 h
      have hover := hfull _ (isLeast_of_alignUp? power hbase).1
      rw [UInt64.le_iff_toNat_le] at hstop
      omega

end Placing

/-! ## Requests -/

section Requests

variable {extent : Extent} {size align : UInt64} {ledger : Ledger Bump}

/-- A block that fits is placed at the first multiple. There is always a number left to count it
with. -/
theorem allocateAligned_of_room (settled : ledger.Settled extent) (nonzero : size ≠ 0)
    (power : Word.isPowerOfTwo align = true) {first : Nat}
    (hleast : IsLeast (multiples align ledger.state.cursor) first)
    (room : first + size.toNat ≤ ledger.state.stop.toNat) :
    ∃ base next allocations : UInt64, allocateAligned size align ledger.state =
        ⟨.ok base, { ledger.state with cursor := next, allocations }, []⟩ ∧
      base.toNat = first ∧ next.toNat = first + size.toNat := by
  obtain ⟨base, next, hplace, hbase, hnext⟩ := place?_of_room power hleast room
  have hcases := allocateAligned_cases size align ledger.state
  generalize allocateAligned size align ledger.state = reply at hcases ⊢
  cases hcases with
  | empty zero => exact absurd zero nonzero
  | unaligned _ odd => exact absurd power odd
  | refused full | uncounted full => cases full.symm.trans hplace
  | placed _ _ placed =>
    cases placed.symm.trans hplace
    exact ⟨base, next, _, rfl, hbase, hnext⟩
  | overrun _ _ placed count => exact absurd count (settled.count_ne_none nonzero power placed)

/-- A block that fits nowhere is refused, and the refusal counted as long as words can count. -/
theorem allocateAligned_of_full (settled : ledger.Settled extent) (nonzero : size ≠ 0)
    (power : Word.isPowerOfTwo align = true) (full : ledger.state.place? size align = none) :
    (allocateAligned size align ledger.state).state.cursor = ledger.state.cursor ∧
      (allocateAligned size align ledger.state).outcome =
        if ledger.refusals + 1 = UInt64.size then .fault .overflow
        else .error .resourceExhausted := by
  have hfailures := settled.failures
  have hcases := allocateAligned_cases size align ledger.state
  generalize allocateAligned size align ledger.state = reply at hcases ⊢
  cases hcases with
  | empty zero => exact absurd zero nonzero
  | unaligned _ odd => exact absurd power odd
  | placed _ _ placed | overrun _ _ placed => cases full.symm.trans placed
  | @refused failures _ count =>
    have hcount := Word.toNat_add? count
    have hbound := failures.toNat_lt_size
    rw [UInt64.toNat_one] at hcount
    exact ⟨rfl, (if_neg (by omega)).symm⟩
  | uncounted _ count =>
    have hbound := ledger.state.failures.toNat_lt_size
    rw [Word.add?_eq_none_iff, UInt64.toNat_one] at count
    exact ⟨rfl, (if_pos (by omega)).symm⟩

end Requests

/-- Allocation is exact first fit, up to the end of the address space. After any run, a block goes
to the first multiple of its alignment that does not lie before the cursor, and the cursor to the
end of the block, if the block ends inside the region. If it does not the request is refused and the
cursor stays; only the refusal that no word can count any more halts instead. Where the rounding or
the sum leaves the words no address would do, and wherever some address would do the request is
answered. -/
theorem first_fit (extent : Extent) (requests : List Request) {size align : UInt64}
    (nonzero : size ≠ 0) (power : align.toNat.isPowerOfTwo) :
    let ledger := (run extent requests).state
    let bump := ledger.state
    let reply := allocateAligned size align bump
    (∃ first, IsLeast (multiples align bump.cursor) first ∧
      (first + size.toNat ≤ bump.stop.toNat → ∃ base, reply.outcome = .ok base ∧
        base.toNat = first ∧ reply.state.cursor.toNat = first + size.toNat) ∧
      (bump.stop.toNat < first + size.toNat → reply.state.cursor = bump.cursor ∧
        reply.outcome = if ledger.refusals + 1 = UInt64.size then .fault .overflow
          else .error .resourceExhausted)) ∧
    ((alignUp? bump.cursor align).bind (Word.add? · size) = none →
      ∀ base ∈ multiples align bump.cursor, bump.stop.toNat < base + size.toNat) ∧
    ∀ base ∈ multiples align bump.cursor, base + size.toNat ≤ bump.stop.toNat →
      ∃ granted, reply.outcome = .ok granted ∧ granted.toNat ≤ base := by
  intro ledger bump reply
  have settled : ledger.Settled extent := settled_run extent requests
  have power := Word.isPowerOfTwo_iff.2 power
  obtain ⟨first, hleast⟩ := exists_isLeast_multiples power bump.cursor
  refine ⟨⟨first, hleast, fun room => ?fits, fun full => ?full⟩, fun overflow => ?overflow,
    fun base hbase room => ?answered⟩
  case fits =>
    obtain ⟨base, next, allocations, hreply, hbase, hnext⟩ :=
      allocateAligned_of_room settled nonzero power hleast room
    refine ⟨base, congrArg Reply.outcome hreply, hbase, ?_⟩
    rw [← hnext]
    exact congrArg (fun reply => reply.state.cursor.toNat) hreply
  case full =>
    refine allocateAligned_of_full settled nonzero power ((place?_eq_none_iff power).2 ?_)
    intro base hbase
    exact Nat.lt_of_lt_of_le full (Nat.add_le_add_right (hleast.2 hbase) _)
  case overflow =>
    refine (place?_eq_none_iff power).1 ?_
    unfold place?
    cases hbase : alignUp? bump.cursor align with
    | none => rfl
    | some base =>
      rw [hbase] at overflow
      have hsum : Word.add? base size = none := overflow
      simp only [hsum]
  case answered =>
    have hfirst := hleast.2 hbase
    obtain ⟨granted, next, allocations, hreply, hgranted, -⟩ :=
      allocateAligned_of_room settled nonzero power hleast
        (Nat.le_trans (Nat.add_le_add_right hfirst _) room)
    exact ⟨granted, congrArg Reply.outcome hreply, hgranted.trans_le hfirst⟩

/-- Behind one byte the next page is the first that will do. -/
theorem first_fit_page :
    (0x10 : UInt64) ≠ 0 ∧ (0x1000 : UInt64).toNat.isPowerOfTwo ∧
      let bump := (run ⟨0x1000, 0x2000⟩ [.allocate 1]).state.state
      0x2000 ∈ multiples 0x1000 bump.cursor ∧
        ∃ granted, (allocateAligned 0x10 0x1000 bump).outcome = .ok granted ∧
          granted.toNat ≤ 0x2000 := by
  have nonzero : (0x10 : UInt64) ≠ 0 := by decide
  have power : (0x1000 : UInt64).toNat.isPowerOfTwo := ⟨12, rfl⟩
  have hpage : 0x2000 ∈ multiples 0x1000 (run ⟨0x1000, 0x2000⟩ [.allocate 1]).state.state.cursor :=
    ⟨by decide, by decide⟩
  exact ⟨nonzero, power, hpage,
    (first_fit ⟨0x1000, 0x2000⟩ [.allocate 1] nonzero power).2.2 0x2000 hpage (by decide)⟩

end Bump
end CellVisor
