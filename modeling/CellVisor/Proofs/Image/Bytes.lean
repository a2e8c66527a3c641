import CellVisor.Proofs.Config.Layout
import CellVisor.Proofs.Image.Copy
import CellVisor.Proofs.Sim.Primitives

/-!
# CellVisor.Proofs.Image.Bytes

What the copy of an image does to the memory of the simulated machine.

* `agrees_of_copy`: a copy that succeeds leaves memory as one copy of the whole would, whatever the
  size of the blocks.
* `byteAt_of_isBlock`: a block changes no byte outside the target of the whole copy.
-/

namespace CellVisor

namespace Physical

def Agrees (a b : Physical) : Prop := ∀ address, a.byteAt address = b.byteAt address

/-- A copy of nothing changes nothing. -/
theorem agrees_copy_zero (memory : Physical) (target source : UInt64) :
    memory.Agrees (memory.copy target source 0) := by
  have htarget : target.toNat + (0 : UInt64).toNat < UInt64.size := target.toNat_lt_size
  have hsource : source.toNat + (0 : UInt64).toNat < UInt64.size := source.toNat_lt_size
  intro address
  refine (byteAt_copy_of_not_mem htarget hsource ?_).symm
  rw [UInt64.toNat_zero]
  omega

/-- Where memory is as after a copy of `done` bytes, the copy of the block after them leaves it as
after a copy of `done'`. -/
theorem agrees_copy_block {old memory : Physical}
    {target source size done done' blockTarget blockSource chunk : UInt64}
    (htarget : target.toNat + size.toNat < UInt64.size)
    (hsource : source.toNat + size.toNat < UInt64.size)
    (hapart : Extent.Apart ⟨target, size⟩ ⟨source, size⟩)
    (hblockTarget : blockTarget.toNat = target.toNat + done.toNat)
    (hblockSource : blockSource.toNat = source.toNat + done.toNat)
    (hdone : done'.toNat = done.toNat + chunk.toNat) (hinside : done'.toNat ≤ size.toNat)
    (h : memory.Agrees (old.copy target source done)) :
    (memory.copy blockTarget blockSource chunk).Agrees (old.copy target source done') := by
  intro address
  by_cases hblock : blockTarget.toNat ≤ address.toNat ∧
      address.toNat < blockTarget.toNat + chunk.toNat
  · have hfrom : blockSource + (address - blockTarget) = source + (address - target) := by
      apply UInt64.toNat.inj
      rw [toNat_moved chunk (by omega) hblock.1 hblock.2,
        toNat_moved size hsource (by omega) (by omega)]
      omega
    -- the byte comes from the source, which the blocks before have not touched
    have hfresh : ¬ (target.toNat ≤ (source + (address - target)).toNat ∧
        (source + (address - target)).toNat < target.toNat + done.toNat) := by
      rw [toNat_moved size hsource (by omega) (by omega)]
      unfold Extent.Apart at hapart
      dsimp only at hapart
      omega
    rw [byteAt_copy_of_mem (by omega) (by omega) hblock,
      byteAt_copy_of_mem (by omega) (by omega) (by omega), hfrom, h,
      byteAt_copy_of_not_mem (by omega) (by omega) hfresh]
  · rw [byteAt_copy_of_not_mem (by omega) (by omega) hblock, h]
    by_cases hbefore : target.toNat ≤ address.toNat ∧ address.toNat < target.toNat + done.toNat
    · rw [byteAt_copy_of_mem (by omega) (by omega) hbefore,
        byteAt_copy_of_mem (by omega) (by omega) (by omega)]
    · rw [byteAt_copy_of_not_mem (by omega) (by omega) hbefore,
        byteAt_copy_of_not_mem (by omega) (by omega) (by omega)]

end Physical

namespace Image

open SimMachine

variable {target source size block : UInt64}

theorem memory_of_copy_ok {machine after : SimMachine}
    (h : SimMachine.copy target source size machine = (.ok (), after)) :
    after.memory = machine.memory.copy target source size := by
  have hcopied := SimMachine.copy_cases target source size machine
  rw [h] at hcopied
  cases hcopied
  rfl

theorem agrees_of_copyBlocks (htarget : target.toNat + size.toNat < UInt64.size)
    (hsource : source.toNat + size.toNat < UInt64.size)
    (hapart : Extent.Apart ⟨target, size⟩ ⟨source, size⟩) (old : Physical) (left : Nat)
    {offset : UInt64} (hoffset : offset.toNat ≤ size.toNat)
    (hleft : size.toNat ≤ offset.toNat + left * block.toNat) {blocks count : UInt32}
    {machine after : SimMachine} {log : List Notice}
    (hmemory : machine.memory.Agrees (old.copy target source offset))
    (h : copyBlocks target source size block left offset blocks machine =
      ⟨.ok count, after, log⟩) :
    after.memory.Agrees (old.copy target source size) := by
  induction left generalizing offset blocks machine with
  | zero =>
    cases h
    have hsize : offset = size := UInt64.toNat.inj (by omega)
    rw [← hsize]
    exact hmemory
  | succ left ih =>
    have hturn := turn_cases target source block hoffset left blocks machine
    generalize copyBlocks target source size block (left + 1) offset blocks machine = reply
      at hturn h
    cases hturn with
    | unaddressed | failed | uncounted => cases h
    | @copied _ _ offset' _ _ htarget' hsource' copied hnext hinside =>
      have hchunk := toNat_chunk block hoffset
      have henough : size.toNat ≤ offset'.toNat + left * block.toNat := by
        rw [Nat.succ_mul] at hleft
        omega
      refine ih hinside henough ?_ h
      rw [memory_of_copy_ok copied]
      exact Physical.agrees_copy_block htarget hsource hapart htarget' hsource' hnext hinside
        hmemory

/-- A copy that succeeds leaves memory as a single copy of the whole would. -/
theorem agrees_of_copy (hblock : 0 < block.toNat)
    (htarget : target.toNat + size.toNat < UInt64.size)
    (hsource : source.toNat + size.toNat < UInt64.size)
    (hapart : Extent.Apart ⟨target, size⟩ ⟨source, size⟩) {count : UInt32}
    {machine after : SimMachine} {log : List Notice}
    (h : copy target source size block machine = ⟨.ok count, after, log⟩) :
    after.memory.Agrees (machine.memory.copy target source size) := by
  have henough := le_blockCount_mul size hblock
  have hzero := Physical.agrees_copy_zero machine.memory target source
  refine agrees_of_copyBlocks htarget hsource hapart machine.memory _ (Nat.zero_le _) ?_ hzero h
  rw [UInt64.toNat_zero]
  omega

/-- A block of a copy changes no byte outside the target of the whole. -/
theorem byteAt_of_isBlock {blockTarget blockSource chunk address : UInt64} {machine : SimMachine}
    (hblock : IsBlock target source size blockTarget blockSource chunk)
    (h : ¬ (target.toNat ≤ address.toNat ∧ address.toNat < target.toNat + size.toNat)) :
    (machine.copy blockTarget blockSource chunk).2.memory.byteAt address =
      machine.memory.byteAt address := by
  obtain ⟨offset, htarget, -, hinside⟩ := hblock
  have hcopied := SimMachine.copy_cases blockTarget blockSource chunk machine
  generalize machine.copy blockTarget blockSource chunk = reply at hcopied ⊢
  cases hcopied with
  | failed => rfl
  | done _ hfits hfits' =>
    refine Physical.byteAt_copy_of_not_mem hfits hfits' ?_
    omega

end Image
end CellVisor
