/-!
# CellVisor.Word

Arithmetic on machine words that does not wrap: a sum that does not fit is either reported or
clamped to the greatest word.

* `toNat_add?`: a reported sum is the sum of the numbers.
* `toNat_addClamped`: a clamped sum is the sum of the numbers, at most `UInt64.size - 1`.
* `toNat_and_not_pred`: masking the low bits off rounds down.
-/

namespace CellVisor
namespace Word

/-- `a + b`, unless it exceeds 64 bits. -/
def add? (a b : UInt64) : Option UInt64 :=
  if a.toNat + b.toNat < UInt64.size then some (a + b) else none

/-- `a + b`, or the greatest 64-bit word where the sum exceeds it. -/
def addClamped (a b : UInt64) : UInt64 := (add? a b).getD 0xFFFFFFFFFFFFFFFF

/-- `a - b`, or zero where `b` is greater. -/
def subClamped (a b : UInt64) : UInt64 := if b ≤ a then a - b else 0

/-- `n + 1`, unless it exceeds 32 bits. -/
def succ? (n : UInt32) : Option UInt32 := if n = 0xFFFFFFFF then none else some (n + 1)

/-- How many zeros are below the lowest bit that is set; 64 where none is. -/
def trailingZeros (word : UInt64) : UInt32 :=
  UInt32.ofNat (((List.range 64).find? fun i => word.toBitVec.getLsbD i).getD 64)

/-- Whether `n` is a power of two: it then is the one its logarithm names. -/
def isPowerOfTwo (n : UInt64) : Bool := n.toNat == 1 <<< n.toNat.log2

theorem add?_eq_some_iff {a b c : UInt64} :
    add? a b = some c ↔ a.toNat + b.toNat = c.toNat := by
  have hc := c.toNat_lt_size
  constructor
  · intro h
    unfold add? at h
    split at h
    · rename_i hlt
      cases h
      rw [UInt64.toNat_add, Nat.mod_eq_of_lt hlt]
    · cases h
  · intro h
    have hlt : a.toNat + b.toNat < UInt64.size := by omega
    rw [add?, if_pos hlt]
    congr 1
    apply UInt64.toNat.inj
    rw [UInt64.toNat_add, Nat.mod_eq_of_lt hlt, h]

theorem toNat_add? {a b c : UInt64} (h : add? a b = some c) : c.toNat = a.toNat + b.toNat :=
  (add?_eq_some_iff.1 h).symm

theorem add?_eq_none_iff {a b : UInt64} : add? a b = none ↔ UInt64.size ≤ a.toNat + b.toNat := by
  unfold add?
  split <;> simp <;> omega

@[simp] theorem add?_zero (a : UInt64) : add? a 0 = some a :=
  add?_eq_some_iff.2 (Nat.add_zero _)

@[simp] theorem zero_add? (a : UInt64) : add? 0 a = some a :=
  add?_eq_some_iff.2 (Nat.zero_add _)

theorem toNat_addClamped (a b : UInt64) :
    (addClamped a b).toNat = min (a.toNat + b.toNat) (UInt64.size - 1) := by
  unfold addClamped
  cases h : add? a b with
  | none =>
    have hsize : UInt64.size = 2 ^ 64 := rfl
    have := add?_eq_none_iff.1 h
    simp only [Option.getD_none, UInt64.reduceToNat]
    omega
  | some c =>
    have h1 := toNat_add? h
    have h2 := c.toNat_lt_size
    simp only [Option.getD_some]
    omega

theorem toNat_subClamped (a b : UInt64) : (subClamped a b).toNat = a.toNat - b.toNat := by
  unfold subClamped
  split
  · rename_i h
    rw [UInt64.toNat_sub_of_le _ _ h]
  · rename_i h
    rw [UInt64.le_iff_toNat_le] at h
    simp only [UInt64.reduceToNat]
    omega

theorem succ?_eq_some_iff {m n : UInt32} : succ? m = some n ↔ m.toNat + 1 = n.toNat := by
  have hm := m.toNat_lt
  have hn := n.toNat_lt
  unfold succ?
  split
  · rename_i h
    subst h
    simp only [UInt32.reduceToNat, false_iff, reduceCtorEq]
    omega
  · rename_i h
    have hne : m.toNat ≠ 2 ^ 32 - 1 := fun e => h (UInt32.toNat.inj e)
    have hsucc : (m + 1).toNat = m.toNat + 1 := by
      rw [UInt32.toNat_add, UInt32.toNat_one, Nat.mod_eq_of_lt (by omega)]
    rw [Option.some.injEq, ← UInt32.toNat_inj, hsucc]

theorem succ?_eq_none_iff {n : UInt32} : succ? n = none ↔ UInt32.size ≤ n.toNat + 1 := by
  have hn := n.toNat_lt_size
  have hsize : UInt32.size = 2 ^ 32 := rfl
  unfold succ?
  split
  · rename_i h
    rw [h]
    decide
  · rename_i h
    have hne : n.toNat ≠ 2 ^ 32 - 1 := fun e => h (UInt32.toNat.inj e)
    simp only [reduceCtorEq, false_iff]
    omega

theorem ne_zero_iff {n : UInt64} : n ≠ 0 ↔ 0 < n.toNat := by
  rw [Nat.pos_iff_ne_zero, ne_eq, ← UInt64.toNat_inj, UInt64.toNat_zero]

theorem isPowerOfTwo_iff {n : UInt64} : isPowerOfTwo n = true ↔ n.toNat.isPowerOfTwo := by
  unfold isPowerOfTwo
  rw [beq_iff_eq, Nat.one_shiftLeft]
  constructor
  · intro h
    exact ⟨_, h⟩
  · rintro ⟨k, h⟩
    rw [h, Nat.log2_two_pow]

theorem pos_of_isPowerOfTwo {n : UInt64} (h : isPowerOfTwo n = true) : 0 < n.toNat := by
  obtain ⟨k, hk⟩ := isPowerOfTwo_iff.1 h
  rw [hk]
  exact Nat.two_pow_pos k

theorem toNat_pred_of_isPowerOfTwo {n : UInt64} (h : isPowerOfTwo n = true) :
    (n - 1).toNat = n.toNat - 1 :=
  UInt64.toNat_sub_of_le _ _ (UInt64.le_iff_toNat_le.2 (pos_of_isPowerOfTwo h))

/-- The words divide evenly into blocks of such a size. -/
theorem dvd_size_of_isPowerOfTwo {n : UInt64} (h : isPowerOfTwo n = true) :
    n.toNat ∣ UInt64.size := by
  obtain ⟨k, hk⟩ := isPowerOfTwo_iff.1 h
  have hlt := n.toNat_lt
  rw [hk] at hlt ⊢
  exact Nat.pow_dvd_pow 2 (Nat.le_of_lt ((Nat.pow_lt_pow_iff_right (by decide)).1 hlt))

/-- The bits outside a mask and those inside it add up to the word. -/
theorem and_not_add_and (n mask : UInt64) : (n &&& ~~~mask) + (n &&& mask) = n := by
  apply UInt64.toBitVec_inj.1
  rw [UInt64.toBitVec_add, UInt64.toBitVec_and, UInt64.toBitVec_and, UInt64.toBitVec_not,
    BitVec.add_eq_or_of_and_eq_zero]
  · ext i hi
    cases h : n.toBitVec[i] <;> simp [h]
  · ext i hi
    cases h : mask.toBitVec[i] <;> simp [h]

/-- Masking the low bits off rounds down to a multiple of a power of two. -/
theorem toNat_and_not_pred {n align : UInt64} (h : isPowerOfTwo align = true) :
    (n &&& ~~~(align - 1)).toNat = n.toNat - n.toNat % align.toNat := by
  obtain ⟨k, hk⟩ := isPowerOfTwo_iff.1 h
  have hlow : (n &&& (align - 1)).toNat = n.toNat % align.toNat := by
    rw [UInt64.toNat_and, toNat_pred_of_isPowerOfTwo h, hk, Nat.and_two_pow_sub_one_eq_mod]
  have hhigh : n &&& ~~~(align - 1) = n - (n &&& (align - 1)) := by
    conv => rhs; lhs; rw [← and_not_add_and n (align - 1)]
    exact (UInt64.add_sub_cancel _ _).symm
  rw [hhigh, UInt64.toNat_sub_of_le, hlow]
  rw [UInt64.le_iff_toNat_le, hlow]
  exact Nat.mod_le _ _

end Word
end CellVisor
