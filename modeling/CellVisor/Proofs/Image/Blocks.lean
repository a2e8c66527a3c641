import CellVisor.Proofs.Image.Bytes

/-!
# CellVisor.Proofs.Image.Blocks

The copy of an image on the simulated machine, block after block.

* `Underway`: the machine after a number of blocks. `copy_underway`: a copy gets as far as the
  machine lets copies succeed.
* `offset_lt_iff`: blocks are left exactly where bytes are.
* `Moved`: what a copy of some number of bytes does to memory.
* `copy_blockwise`: in blocks of whatever size, a copy does what a single one does; where copies
  begin to fail, it ends with the blocks before.
-/

namespace CellVisor

namespace Physical

variable {old new : Physical} {target source : UInt64} {count : Nat}

/-- From `old` to `new`, `count` bytes from `source` on were copied to `target`, and no other byte
has changed. -/
structure Moved (old new : Physical) (target source : UInt64) (count : Nat) : Prop where
  inside : ∀ i < count,
    new.byteAt (target + UInt64.ofNat i) = old.byteAt (source + UInt64.ofNat i)
  outside : ∀ address : UInt64,
    ¬ (target.toNat ≤ address.toNat ∧ address.toNat < target.toNat + count) →
      new.byteAt address = old.byteAt address

theorem moved_of_agrees {size : UInt64} (hcount : size.toNat = count)
    (htarget : target.toNat + size.toNat < UInt64.size)
    (hsource : source.toNat + size.toNat < UInt64.size)
    (h : new.Agrees (old.copy target source size)) : Moved old new target source count where
  inside := by
    intro i hi
    have hindex : (UInt64.ofNat i).toNat = i := UInt64.toNat_ofNat_of_lt' (by omega)
    have hsum : target.toNat + i < UInt64.size := by omega
    have hat : (target + UInt64.ofNat i).toNat = target.toNat + i := by
      rw [UInt64.toNat_add, hindex, Nat.mod_eq_of_lt hsum]
    have hback : target + UInt64.ofNat i - target = UInt64.ofNat i := by
      rw [UInt64.add_comm, UInt64.add_sub_cancel]
    rw [h, byteAt_copy_of_mem htarget hsource (by omega), hback]
  outside := by
    intro address haddress
    rw [h, byteAt_copy_of_not_mem htarget hsource (by omega)]

theorem Agrees.symm (h : old.Agrees new) : new.Agrees old := fun address => (h address).symm

theorem Agrees.trans {other : Physical} (h : old.Agrees new) (h' : new.Agrees other) :
    old.Agrees other := fun address => (h address).trans (h' address)

theorem readList_of_agrees (h : old.Agrees new) (address : UInt64) (count : Nat) :
    old.readList address count = new.readList address count :=
  List.map_congr_left fun _ _ => h _

end Physical

theorem SimMachine.outcome_peek_of_agrees {a b : SimMachine} (h : a.memory.Agrees b.memory)
    (address : UInt64) (count : Nat) :
    (peek address count a).outcome = (peek address count b).outcome := by
  have hread := Physical.readList_of_agrees h address count
  unfold peek
  split
  · rfl
  · exact congrArg Outcome.ok hread

namespace Image

open SimMachine

variable {target source size block : UInt64} {start machine : SimMachine} {count : Nat}

/-! ## Block after block -/

/-- There are blocks left to copy exactly where there are bytes left. -/
theorem offset_lt_iff (hblock : 0 < block.toNat) :
    count * block.toNat < size.toNat ↔ count < blockCount size block := by
  rw [blockCount_eq size hblock, Nat.lt_div_iff_mul_lt hblock]
  omega

/-- Since `start`, `count` blocks were copied; `offset` is where the next one begins. -/
structure Underway (target source size block : UInt64) (start : SimMachine) (count : Nat)
    (offset : UInt64) (blocks : UInt32) (machine : SimMachine) : Prop where
  offset_eq : offset.toNat = min (count * block.toNat) size.toNat
  blocks_eq : blocks.toNat = count
  memory : machine.memory.Agrees (start.memory.copy target source offset)
  copiesLeft : machine.copiesLeft = start.copiesLeft.map (· - count)

theorem underway_start (target source size block : UInt64) (start : SimMachine) :
    Underway target source size block start 0 0 0 start where
  offset_eq := by simp
  blocks_eq := rfl
  memory := Physical.agrees_copy_zero _ _ _
  copiesLeft := by simp

/-- A copy goes on for as many blocks as the machine affords. -/
theorem copy_underway (htarget : target.toNat + size.toNat < UInt64.size)
    (hsource : source.toNat + size.toNat < UInt64.size)
    (hapart : Extent.Apart ⟨target, size⟩ ⟨source, size⟩)
    (hcounted : blockCount size block < UInt32.size) {left : Nat}
    (hcount : count + left = blockCount size block) (affords : start.Affords count) :
    ∃ offset blocks machine, Underway target source size block start count offset blocks machine ∧
      copy target source size block start =
        copyBlocks target source size block left offset blocks machine := by
  induction count generalizing left with
  | zero =>
    refine ⟨0, 0, start, underway_start .., ?_⟩
    rw [copy, ← hcount, Nat.zero_add]
  | succ count ih =>
    have hbefore : count + (left + 1) = blockCount size block := by omega
    obtain ⟨offset, blocks, machine, hunderway, hcopy⟩ :=
      ih hbefore fun left hleft => Nat.le_of_succ_le (affords left hleft)
    obtain ⟨hoffset, hblocks, hmemory, hleft⟩ := hunderway
    have hinside : offset.toNat ≤ size.toNat := by omega
    have hchunk := toNat_chunk block hinside
    -- one more copy is left, so the next block does not fail
    have hnext : machine.Affords 1 := by
      intro rest hrest
      rw [hleft, Option.map_eq_some_iff] at hrest
      obtain ⟨all, hall, rfl⟩ := hrest
      have := affords all hall
      omega
    have hturn := turn_cases target source block hinside left blocks machine
    rw [hcopy]
    generalize copyBlocks target source size block (left + 1) offset blocks machine = reply
      at hturn ⊢
    cases hturn with
    | unaddressed overflow => omega
    | uncounted _ _ overflow => omega
    | @failed blockTarget blockSource _ _ inside copied =>
      obtain ⟨distance, htargetAt, hsourceAt, hend⟩ := inside
      have hdone : Machine.copy blockTarget blockSource (min block (size - offset)) machine = _ :=
        copy_of_affords hnext (by omega) (by omega)
      rw [hdone] at copied
      cases copied
    | @copied blockTarget blockSource offset' blocks' after htargetAt hsourceAt copied hoffset'
        hinside' hblocks' =>
      have hdone : Machine.copy blockTarget blockSource (min block (size - offset)) machine = _ :=
        copy_of_affords hnext (by omega) (by omega)
      rw [hdone] at copied
      cases copied
      refine ⟨offset', blocks', _, ⟨?_, by omega, ?_, ?_⟩, rfl⟩
      · rw [Nat.succ_mul]
        omega
      · exact Physical.agrees_copy_block htarget hsource hapart htargetAt hsourceAt hoffset'
          hinside' hmemory
      · rw [hleft, Option.map_map]
        exact Option.map_congr fun all _ => Nat.sub_sub all count 1

/-! ## The whole -/

/-- A single copy of the whole, where a copy in blocks is affordable. -/
theorem agrees_single (hblock : 0 < block.toNat)
    (htarget : target.toNat + size.toNat < UInt64.size)
    (hsource : source.toNat + size.toNat < UInt64.size)
    (affords : machine.Affords (blockCount size block)) :
    (machine.copy target source size).2.memory.Agrees
      (machine.memory.copy target source size) := by
  by_cases hsize : 0 < size.toNat
  · have hnext : machine.Affords 1 := fun left hleft =>
      Nat.le_trans (blockCount_pos hblock hsize) (affords left hleft)
    rw [copy_of_affords hnext htarget hsource]
    exact fun _ => rfl
  · -- a copy of nothing may fail, but it would not have changed anything
    have hzero : size = 0 := UInt64.toNat.inj (by simpa using hsize)
    subst hzero
    have hcopied := SimMachine.copy_cases target source 0 machine
    generalize machine.copy target source 0 = reply at hcopied ⊢
    cases hcopied with
    | failed => exact Physical.agrees_copy_zero _ _ _
    | done => exact fun _ => rfl

theorem copy_of_affordable (hblock : 0 < block.toNat)
    (htarget : target.toNat + size.toNat < UInt64.size)
    (hsource : source.toNat + size.toNat < UInt64.size)
    (hapart : Extent.Apart ⟨target, size⟩ ⟨source, size⟩)
    (hcounted : blockCount size block < UInt32.size)
    (affords : machine.Affords (blockCount size block)) :
    ∃ count, (copy target source size block machine).outcome = .ok count ∧
      count.toNat = blockCount size block ∧
      (copy target source size block machine).state.memory.Agrees
        (machine.memory.copy target source size) := by
  obtain ⟨offset, blocks, after, hunderway, hcopy⟩ :=
    copy_underway htarget hsource hapart hcounted (Nat.add_zero _) affords
  have henough := le_blockCount_mul size hblock
  have hoffset : offset = size := UInt64.toNat.inj (by rw [hunderway.offset_eq]; omega)
  rw [hcopy]
  refine ⟨blocks, rfl, hunderway.blocks_eq, ?_⟩
  rw [← hoffset]
  exact hunderway.memory

theorem copy_of_unaffordable (hblock : 0 < block.toNat)
    (htarget : target.toNat + size.toNat < UInt64.size)
    (hsource : source.toNat + size.toNat < UInt64.size)
    (hapart : Extent.Apart ⟨target, size⟩ ⟨source, size⟩)
    (hcounted : blockCount size block < UInt32.size) (hleft : machine.copiesLeft = some count)
    (hfew : count < blockCount size block) :
    (copy target source size block machine).outcome = .error .copyFailed ∧
      Physical.Moved machine.memory (copy target source size block machine).state.memory target
        source (count * block.toNat) := by
  have affords : machine.Affords count := fun left h => by
    rw [hleft] at h
    cases h
    exact Nat.le_refl _
  obtain ⟨rest, hrest⟩ := Nat.exists_eq_add_of_lt hfew
  have hcount : count + (rest + 1) = blockCount size block := by omega
  obtain ⟨offset, blocks, before, hunderway, hcopy⟩ :=
    copy_underway htarget hsource hapart hcounted hcount affords
  have hbytes := (offset_lt_iff hblock).2 hfew
  have hoffset : offset.toNat = count * block.toNat := by
    rw [hunderway.offset_eq]
    omega
  have hnone : before.copiesLeft = some 0 := by
    rw [hunderway.copiesLeft, hleft, Option.map_some, Nat.sub_self]
  have hfails : ∀ blockTarget blockSource chunk,
      Machine.copy blockTarget blockSource chunk before = (.error .copyFailed, before) :=
    fun _ _ _ => if_pos hnone
  have hinside : offset.toNat ≤ size.toNat := by omega
  have hturn := turn_cases target source block hinside rest blocks before
  rw [hcopy]
  generalize copyBlocks target source size block (rest + 1) offset blocks before = reply
    at hturn ⊢
  cases hturn with
  | unaddressed overflow => omega
  | uncounted _ copied | copied _ _ copied =>
    rw [hfails] at copied
    cases copied
  | failed _ copied =>
    rw [hfails] at copied
    cases copied
    exact ⟨rfl, Physical.moved_of_agrees hoffset (by omega) (by omega) hunderway.memory⟩

/-- In blocks of any size a copy leaves memory as a single copy of the whole does, and it counts the
blocks. On a machine that lets only fewer copies succeed it fails, with these blocks copied. -/
theorem copy_blockwise (target source size block : UInt64) (machine : SimMachine)
    (hblock : 0 < block.toNat)
    (htarget : target.toNat + size.toNat < UInt64.size)
    (hsource : source.toNat + size.toNat < UInt64.size)
    (hapart : Extent.Apart ⟨target, size⟩ ⟨source, size⟩)
    (hcounted : (size.toNat + block.toNat - 1) / block.toNat < UInt32.size) :
    (machine.Affords ((size.toNat + block.toNat - 1) / block.toNat) →
      (∃ count, (copy target source size block machine).outcome = .ok count ∧
        count.toNat = (size.toNat + block.toNat - 1) / block.toNat) ∧
      (∀ address length,
        (peek address length (copy target source size block machine).state).outcome =
          (peek address length (machine.copy target source size).2).outcome) ∧
      Physical.Moved machine.memory (copy target source size block machine).state.memory target
        source size.toNat ∧
      ∀ other : UInt64, 0 < other.toNat →
        (size.toNat + other.toNat - 1) / other.toNat < UInt32.size →
        machine.Affords ((size.toNat + other.toNat - 1) / other.toNat) →
          (copy target source size block machine).state.memory.Agrees
            (copy target source size other machine).state.memory) ∧
    ∀ left, machine.copiesLeft = some left → left < (size.toNat + block.toNat - 1) / block.toNat →
      (copy target source size block machine).outcome = .error .copyFailed ∧
        Physical.Moved machine.memory (copy target source size block machine).state.memory target
          source (left * block.toNat) := by
  rw [← blockCount_eq size hblock] at hcounted ⊢
  constructor
  · intro affords
    obtain ⟨count, houtcome, hcount, hagrees⟩ :=
      copy_of_affordable hblock htarget hsource hapart hcounted affords
    refine ⟨⟨count, houtcome, hcount⟩, fun address length => ?_,
      Physical.moved_of_agrees rfl htarget hsource hagrees,
      fun other hother hcounted' affords' => ?_⟩
    · have hsingle := agrees_single hblock htarget hsource affords
      exact outcome_peek_of_agrees (hagrees.trans hsingle.symm) address length
    · rw [← blockCount_eq size hother] at hcounted' affords'
      obtain ⟨-, -, -, hagrees'⟩ :=
        copy_of_affordable hother htarget hsource hapart hcounted' affords'
      exact hagrees.trans hagrees'.symm
  · intro left hleft hfew
    exact copy_of_unaffordable hblock htarget hsource hapart hcounted hleft hfew

/-- Where two copies succeed, ten bytes get to their place in blocks of five, and eight of them in
blocks of four. -/
theorem copy_blockwise_ten :
    Physical.Moved ((ofCores 4).failCopiesAfter 2).memory
        (copy 0x1000 0x2000 10 5 ((ofCores 4).failCopiesAfter 2)).state.memory 0x1000 0x2000 10 ∧
      (copy 0x1000 0x2000 10 4 ((ofCores 4).failCopiesAfter 2)).outcome = .error .copyFailed ∧
      Physical.Moved ((ofCores 4).failCopiesAfter 2).memory
        (copy 0x1000 0x2000 10 4 ((ofCores 4).failCopiesAfter 2)).state.memory 0x1000 0x2000 8 := by
  have hfives := copy_blockwise 0x1000 0x2000 10 5 ((ofCores 4).failCopiesAfter 2) (by decide)
    (by decide) (by decide) (.inl (by decide)) (by decide)
  have hfours := copy_blockwise 0x1000 0x2000 10 4 ((ofCores 4).failCopiesAfter 2) (by decide)
    (by decide) (by decide) (.inl (by decide)) (by decide)
  have affords : ((ofCores 4).failCopiesAfter 2).Affords 2 := fun left hleft => by
    cases hleft
    exact Nat.le_refl 2
  exact ⟨(hfives.1 affords).2.2.1, hfours.2 2 rfl (by decide)⟩

end Image
end CellVisor
