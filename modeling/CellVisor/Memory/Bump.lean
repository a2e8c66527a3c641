import CellVisor.Action

/-!
# CellVisor.Memory.Bump

An allocator that hands out addresses of a region by moving a cursor upwards. Nothing is reclaimed.
-/

namespace CellVisor

/-- The region from `start` to `stop`, handed out up to `cursor`. -/
structure Bump where
  start : UInt64
  stop : UInt64
  cursor : UInt64
  allocations : UInt64 := 0
  failures : UInt64 := 0
  deriving Repr, DecidableEq

structure BumpStats where
  used : UInt64
  remaining : UInt64
  allocations : UInt64
  failures : UInt64
  deriving Repr, DecidableEq

namespace Bump

def ofExtent (extent : Extent) : Bump where
  start := extent.base
  stop := extent.stop
  cursor := extent.base

/-- The first multiple of `align` from `address` on, unless it exceeds a word. -/
def alignUp? (address align : UInt64) : Option UInt64 :=
  if address % align = 0 then some address
  else (Word.add? address (align - 1)).map fun sum => sum &&& ~~~(align - 1)

/-- Where the next block of `size` bytes with this alignment begins and ends, if it fits. -/
def place? (bump : Bump) (size align : UInt64) : Option (UInt64 × UInt64) :=
  match alignUp? bump.cursor align with
  | none => none
  | some base =>
    match Word.add? base size with
    | none => none
    | some next => if next ≤ bump.stop then some (base, next) else none

/-- Hands out `size` bytes at the next multiple of `align`. A request that does not fit is counted
and reported, and leaves the cursor where it is. -/
def allocateAligned (size align : UInt64) : Action Bump UInt64 := do
  if size = 0 then
    Action.fail (.config .zeroSizedAllocation)
  if !Word.isPowerOfTwo align then
    Action.fail (.config .alignmentNotPowerOfTwo)
  let bump ← Action.get
  match bump.place? size align with
  | some (base, next) =>
    let allocations ← Action.word (Word.add? bump.allocations 1)
    Action.update fun bump => { bump with cursor := next, allocations }
    pure base
  | none =>
    let failures ← Action.word (Word.add? bump.failures 1)
    Action.update fun bump => { bump with failures }
    Action.note (.allocationRefused size (bump.stop - bump.cursor))
    Action.fail .resourceExhausted

/-- Hands out `size` bytes where the cursor is. -/
def allocate (size : UInt64) : Action Bump UInt64 := allocateAligned size 1

/-- Takes a block back, which changes nothing. -/
def free (_address _size : UInt64) (bump : Bump) : Bump := bump

def stats (bump : Bump) : BumpStats where
  used := bump.cursor - bump.start
  remaining := bump.stop - bump.cursor
  allocations := bump.allocations
  failures := bump.failures

end Bump
end CellVisor
