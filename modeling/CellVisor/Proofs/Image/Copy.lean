import CellVisor.Cell.Image
import CellVisor.Proofs.Action

/-!
# CellVisor.Proofs.Image.Copy

The copy of an image on any machine, block by block. The invariant of its loop is that the offset
stays inside the size that is copied.

* `keeps_copy`: what a copy of any block of the image keeps, the whole copy keeps, wherever it ends.
* `toNat_of_copy`: a copy that succeeds gives the number of blocks.
* `failed_of_copy`: a copy that fails does so at one of its blocks.
* `fault_of_copy`: what halts a copy is a number that leaves its word.
* `copy_cases`: inside the address space, and with blocks that a word can count, a copy succeeds or
  ends with the error of a block; it does not halt.
-/

namespace CellVisor
namespace Image

variable {M : Type} [Machine M] {target source size block : UInt64}

/-- A block of a copy of `size` bytes from `source` to `target`: it is as far from `target` as from
`source`, and inside what is copied. -/
def IsBlock (target source size blockTarget blockSource chunk : UInt64) : Prop :=
  ∃ offset : Nat, blockTarget.toNat = target.toNat + offset ∧
    blockSource.toNat = source.toNat + offset ∧ offset + chunk.toNat ≤ size.toNat

theorem start_le (size : UInt64) : (0 : UInt64).toNat ≤ size.toNat := Nat.zero_le _

/-! ## One turn of the loop -/

theorem toNat_chunk (block : UInt64) {offset : UInt64} (hoffset : offset.toNat ≤ size.toNat) :
    (min block (size - offset)).toNat = min block.toNat (size.toNat - offset.toNat) := by
  have hleft : (size - offset).toNat = size.toNat - offset.toNat :=
    UInt64.toNat_sub_of_le _ _ (UInt64.le_iff_toNat_le.2 hoffset)
  show (if block ≤ size - offset then block else size - offset).toNat = _
  split
  · rename_i h
    rw [UInt64.le_iff_toNat_le, hleft] at h
    omega
  · rename_i h
    rw [UInt64.le_iff_toNat_le, hleft] at h
    omega

/-- How a turn of the loop goes, with `left` more to come. -/
inductive Turn (target source size block : UInt64) (left : Nat) (offset : UInt64) (blocks : UInt32)
    (machine : M) : Reply M UInt32 → Prop where
  | unaddressed (overflow : UInt64.size ≤ target.toNat + offset.toNat ∨
        UInt64.size ≤ source.toNat + offset.toNat) :
      Turn target source size block left offset blocks machine ⟨.fault .overflow, machine, []⟩
  | failed {blockTarget blockSource : UInt64} {error : Error} {after : M}
      (inside : IsBlock target source size blockTarget blockSource (min block (size - offset)))
      (copied : Machine.copy blockTarget blockSource (min block (size - offset)) machine =
        (.error error, after)) :
      Turn target source size block left offset blocks machine ⟨.error error, after, []⟩
  /-- The block is copied, but there is no number for it. -/
  | uncounted {blockTarget blockSource : UInt64} {after : M}
      (inside : IsBlock target source size blockTarget blockSource (min block (size - offset)))
      (copied : Machine.copy blockTarget blockSource (min block (size - offset)) machine =
        (.ok (), after))
      (overflow : UInt32.size ≤ blocks.toNat + 1) :
      Turn target source size block left offset blocks machine ⟨.fault .overflow, after, []⟩
  | copied {blockTarget blockSource offset' : UInt64} {blocks' : UInt32} {after : M}
      (target_eq : blockTarget.toNat = target.toNat + offset.toNat)
      (source_eq : blockSource.toNat = source.toNat + offset.toNat)
      (copied : Machine.copy blockTarget blockSource (min block (size - offset)) machine =
        (.ok (), after))
      (offset_eq : offset'.toNat = offset.toNat + (min block (size - offset)).toNat)
      (inside : offset'.toNat ≤ size.toNat)
      (blocks_eq : blocks'.toNat = blocks.toNat + 1) :
      Turn target source size block left offset blocks machine
        (copyBlocks target source size block left offset' blocks' after)

theorem isBlock_next (block : UInt64) {offset blockTarget blockSource : UInt64}
    (hoffset : offset.toNat ≤ size.toNat)
    (htarget : blockTarget.toNat = target.toNat + offset.toNat)
    (hsource : blockSource.toNat = source.toNat + offset.toNat) :
    IsBlock target source size blockTarget blockSource (min block (size - offset)) := by
  refine ⟨offset.toNat, htarget, hsource, ?_⟩
  rw [toNat_chunk block hoffset]
  omega

theorem turn_cases (target source block : UInt64) {offset : UInt64}
    (hoffset : offset.toNat ≤ size.toNat) (left : Nat) (blocks : UInt32) (machine : M) :
    Turn target source size block left offset blocks machine
      (copyBlocks target source size block (left + 1) offset blocks machine) := by
  rw [copyBlocks]
  cases htarget : Word.add? target offset with
  | none => exact .unaddressed (.inl (Word.add?_eq_none_iff.1 htarget))
  | some blockTarget =>
    cases hsource : Word.add? source offset with
    | none => exact .unaddressed (.inr (Word.add?_eq_none_iff.1 hsource))
    | some blockSource =>
      have htarget := Word.toNat_add? htarget
      have hsource := Word.toNat_add? hsource
      have inside := isBlock_next block hoffset htarget hsource
      dsimp only
      split
      · rename_i error after copied
        exact .failed inside copied
      · rename_i after copied
        have hchunk := toNat_chunk block hoffset
        cases hnext : Word.add? offset (min block (size - offset)) with
        | none =>
          -- the offset stays inside the size, so it cannot leave the word
          have hover := Word.add?_eq_none_iff.1 hnext
          have hsize := size.toNat_lt_size
          omega
        | some offset' =>
          cases hcount : Word.succ? blocks with
          | none => exact .uncounted inside copied (Word.succ?_eq_none_iff.1 hcount)
          | some blocks' =>
            have hnext := Word.toNat_add? hnext
            have hinside : offset'.toNat ≤ size.toNat := by omega
            exact .copied htarget hsource copied hnext hinside
              (Word.succ?_eq_some_iff.1 hcount).symm

/-! ## What is kept -/

section Kept

variable {P : M → Prop}

theorem keeps_copyBlocks
    (h : ∀ {blockTarget blockSource chunk machine},
      IsBlock target source size blockTarget blockSource chunk → P machine →
        P (Machine.copy blockTarget blockSource chunk machine).2)
    (left : Nat) {offset : UInt64} (hoffset : offset.toNat ≤ size.toNat) (blocks : UInt32) :
    Action.Keeps P (copyBlocks target source size block left offset blocks) := by
  induction left generalizing offset blocks with
  | zero => exact fun _ hmachine => hmachine
  | succ left ih =>
    intro machine hmachine
    have hturn := turn_cases target source block hoffset left blocks machine
    generalize copyBlocks target source size block (left + 1) offset blocks machine = reply
      at hturn ⊢
    cases hturn with
    | unaddressed => exact hmachine
    | failed inside copied | uncounted inside copied =>
      have hcopied := h inside hmachine
      rw [copied] at hcopied
      exact hcopied
    | copied htarget hsource copied _ hinside =>
      have hcopied := h (isBlock_next block hoffset htarget hsource) hmachine
      rw [copied] at hcopied
      exact ih hinside _ _ hcopied

/-- What the copy of any block keeps, the copy of the image keeps. -/
theorem keeps_copy
    (h : ∀ {blockTarget blockSource chunk machine},
      IsBlock target source size blockTarget blockSource chunk → P machine →
        P (Machine.copy blockTarget blockSource chunk machine).2) :
    Action.Keeps P (copy target source size block) :=
  keeps_copyBlocks h (blockCount size block) (start_le size) 0

end Kept

/-! ## How it ends -/

theorem log_copyBlocks (left : Nat) {offset : UInt64} (hoffset : offset.toNat ≤ size.toNat)
    (blocks : UInt32) (machine : M) :
    (copyBlocks target source size block left offset blocks machine).log = [] := by
  induction left generalizing offset blocks machine with
  | zero => rfl
  | succ left ih =>
    have hturn := turn_cases target source block hoffset left blocks machine
    generalize copyBlocks target source size block (left + 1) offset blocks machine = reply
      at hturn ⊢
    cases hturn with
    | unaddressed | failed | uncounted => rfl
    | copied _ _ _ _ hinside => exact ih hinside _ _

theorem log_copy (machine : M) : (copy target source size block machine).log = [] :=
  log_copyBlocks _ (start_le size) 0 machine

theorem blockCount_eq (size : UInt64) (hblock : 0 < block.toNat) :
    blockCount size block = (size.toNat + block.toNat - 1) / block.toNat := by
  have hne : block ≠ 0 := fun hzero => by
    rw [hzero] at hblock
    exact absurd hblock (by decide)
  rw [blockCount, if_neg hne]

theorem le_blockCount_mul (size : UInt64) (hblock : 0 < block.toNat) :
    size.toNat ≤ blockCount size block * block.toNat := by
  rw [blockCount_eq size hblock]
  have hdiv := Nat.div_add_mod (size.toNat + block.toNat - 1) block.toNat
  have hmod := Nat.mod_lt (size.toNat + block.toNat - 1) hblock
  rw [Nat.mul_comm] at hdiv
  omega

theorem blockCount_pos (hblock : 0 < block.toNat) (hsize : 0 < size.toNat) :
    0 < blockCount size block := by
  have henough := le_blockCount_mul size hblock
  refine Nat.pos_of_ne_zero fun hzero => ?_
  rw [hzero, Nat.zero_mul] at henough
  omega

theorem copyBlocks_cases (block : UInt64)
    (htarget : target.toNat + size.toNat < UInt64.size)
    (hsource : source.toNat + size.toNat < UInt64.size) (left : Nat) {offset : UInt64}
    (hoffset : offset.toNat ≤ size.toNat) {blocks : UInt32}
    (hblocks : blocks.toNat + left < UInt32.size) (machine : M) :
    (∃ count after, copyBlocks target source size block left offset blocks machine =
        ⟨.ok count, after, []⟩) ∨
      ∃ error after, copyBlocks target source size block left offset blocks machine =
        ⟨.error error, after, []⟩ ∧
        ∃ blockTarget blockSource chunk, ∃ before : M,
          Machine.copy blockTarget blockSource chunk before = (.error error, after) := by
  induction left generalizing offset blocks machine with
  | zero => exact .inl ⟨blocks, machine, rfl⟩
  | succ left ih =>
    have hturn := turn_cases target source block hoffset left blocks machine
    generalize copyBlocks target source size block (left + 1) offset blocks machine = reply
      at hturn ⊢
    cases hturn with
    | unaddressed overflow => omega
    | uncounted _ _ overflow => omega
    | failed _ copied => exact .inr ⟨_, _, rfl, _, _, _, _, copied⟩
    | @copied _ _ _ blocks' after _ _ _ _ hinside hcount =>
      have hcounted : blocks'.toNat + left < UInt32.size := by omega
      exact ih hinside hcounted after

theorem failed_of_copyBlocks {P : M → Prop}
    (keeps : ∀ {blockTarget blockSource chunk machine},
      IsBlock target source size blockTarget blockSource chunk → P machine →
        P (Machine.copy blockTarget blockSource chunk machine).2)
    (left : Nat) {offset : UInt64} (hoffset : offset.toNat ≤ size.toNat) {blocks : UInt32}
    {machine after : M} {error : Error} {log : List Notice} (hmachine : P machine)
    (h : copyBlocks target source size block left offset blocks machine =
      ⟨.error error, after, log⟩) :
    ∃ blockTarget blockSource chunk, ∃ before : M,
      IsBlock target source size blockTarget blockSource chunk ∧ P before ∧
        Machine.copy blockTarget blockSource chunk before = (.error error, after) := by
  induction left generalizing offset blocks machine with
  | zero => cases h
  | succ left ih =>
    have hturn := turn_cases target source block hoffset left blocks machine
    generalize copyBlocks target source size block (left + 1) offset blocks machine = reply
      at hturn h
    cases hturn with
    | unaddressed | uncounted => cases h
    | failed inside copied =>
      cases h
      exact ⟨_, _, _, machine, inside, hmachine, copied⟩
    | copied htarget hsource copied _ hinside =>
      have hcopied := keeps (isBlock_next block hoffset htarget hsource) hmachine
      rw [copied] at hcopied
      exact ih hinside hcopied h

/-- An error of a copy is that of a block, copied on a machine with what every block keeps. -/
theorem failed_of_copy {P : M → Prop}
    (keeps : ∀ {blockTarget blockSource chunk machine},
      IsBlock target source size blockTarget blockSource chunk → P machine →
        P (Machine.copy blockTarget blockSource chunk machine).2)
    {machine after : M} {error : Error} {log : List Notice} (hmachine : P machine)
    (h : copy target source size block machine = ⟨.error error, after, log⟩) :
    ∃ blockTarget blockSource chunk, ∃ before : M,
      IsBlock target source size blockTarget blockSource chunk ∧ P before ∧
        Machine.copy blockTarget blockSource chunk before = (.error error, after) :=
  failed_of_copyBlocks keeps _ (start_le size) hmachine h

/-- What halts a copy is a number that leaves its word. -/
theorem fault_of_copyBlocks (left : Nat) {offset : UInt64} (hoffset : offset.toNat ≤ size.toNat)
    {blocks : UInt32} {machine after : M} {fault : Fault} {log : List Notice}
    (h : copyBlocks target source size block left offset blocks machine =
      ⟨.fault fault, after, log⟩) : fault = .overflow := by
  induction left generalizing offset blocks machine with
  | zero => cases h
  | succ left ih =>
    have hturn := turn_cases target source block hoffset left blocks machine
    generalize copyBlocks target source size block (left + 1) offset blocks machine = reply
      at hturn h
    cases hturn with
    | failed => cases h
    | unaddressed | uncounted =>
      cases h
      rfl
    | copied _ _ _ _ hinside => exact ih hinside h

theorem fault_of_copy {machine after : M} {fault : Fault} {log : List Notice}
    (h : copy target source size block machine = ⟨.fault fault, after, log⟩) :
    fault = .overflow := fault_of_copyBlocks _ (start_le size) h

theorem toNat_of_copyBlocks (left : Nat) {offset : UInt64} (hoffset : offset.toNat ≤ size.toNat)
    {blocks count : UInt32} {machine after : M} {log : List Notice}
    (h : copyBlocks target source size block left offset blocks machine =
      ⟨.ok count, after, log⟩) : count.toNat = blocks.toNat + left := by
  induction left generalizing offset blocks machine with
  | zero =>
    cases h
    rfl
  | succ left ih =>
    have hturn := turn_cases target source block hoffset left blocks machine
    generalize copyBlocks target source size block (left + 1) offset blocks machine = reply
      at hturn h
    cases hturn with
    | unaddressed | failed | uncounted => cases h
    | copied _ _ _ _ hinside hcount =>
      rw [ih hinside h, hcount]
      omega

theorem toNat_of_copy {count : UInt32} {machine after : M} {log : List Notice}
    (h : copy target source size block machine = ⟨.ok count, after, log⟩) :
    count.toNat = blockCount size block := by
  rw [toNat_of_copyBlocks _ (start_le size) h, UInt32.toNat_zero, Nat.zero_add]

/-- A copy inside the address space succeeds or ends with the error of a block. -/
theorem copy_cases (htarget : target.toNat + size.toNat < UInt64.size)
    (hsource : source.toNat + size.toNat < UInt64.size)
    (hblocks : blockCount size block < UInt32.size) (machine : M) :
    (∃ count after, copy target source size block machine = ⟨.ok count, after, []⟩) ∨
      ∃ error after, copy target source size block machine = ⟨.error error, after, []⟩ ∧
        ∃ blockTarget blockSource chunk, ∃ before : M,
          Machine.copy blockTarget blockSource chunk before = (.error error, after) := by
  have hcounted : (0 : UInt32).toNat + blockCount size block < UInt32.size := by
    rw [UInt32.toNat_zero]
    omega
  exact copyBlocks_cases block htarget hsource _ (start_le size) hcounted machine

end Image
end CellVisor
