import CellVisor.Machine

/-!
# CellVisor.Cell.Image

Copies of a cell's memory, made block by block.
-/

namespace CellVisor
namespace Image

variable {M : Type} [Machine M]

/-- How many blocks of `block` bytes it takes to hold `size` bytes; none for blocks without size. -/
def blockCount (size block : UInt64) : Nat :=
  if block = 0 then 0 else (size.toNat + block.toNat - 1) / block.toNat

/-- Copies the next blocks, from `offset` on, and counts them on from `blocks`. The last one is cut
to what is left of `size`. -/
def copyBlocks (target source size block : UInt64) : Nat → UInt64 → UInt32 → M → Reply M UInt32
  | 0, _, blocks, machine => ⟨.ok blocks, machine, []⟩
  | left + 1, offset, blocks, machine =>
    let chunk := min block (size - offset)
    match Word.add? target offset, Word.add? source offset with
    | some blockTarget, some blockSource =>
      match Machine.copy blockTarget blockSource chunk machine with
      | (.error error, machine) => ⟨.error error, machine, []⟩
      | (.ok (), machine) =>
        match Word.add? offset chunk, Word.succ? blocks with
        | some offset, some blocks =>
          copyBlocks target source size block left offset blocks machine
        | _, _ => ⟨.fault .overflow, machine, []⟩
    | _, _ => ⟨.fault .overflow, machine, []⟩

/-- Copies `size` bytes in blocks and gives the number of blocks. -/
def copy (target source size block : UInt64) : Action M UInt32 :=
  copyBlocks target source size block (blockCount size block) 0 0

end Image
end CellVisor
