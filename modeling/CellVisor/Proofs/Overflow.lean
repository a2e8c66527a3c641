import CellVisor.Proofs.Cell.Changes
import CellVisor.Proofs.Cell.Prompt
import CellVisor.Proofs.Switch.Turnout

/-!
# CellVisor.Proofs.Overflow

Which numbers of a hibernation, a resumption or a switch can leave their word: on a machine whose
clock is far from its end, for the cells of an accepted configuration, only the count of the blocks
of an image.

* `Cells.Imaged`: a cell that has an image has the number of its blocks, so the image is one that
  was counted.
* `SharedHost.Ticked`: each switch has taken a tick at least, so the clock runs out before the
  number of switches does.
* `CellLayout.InWords`: the sums that a copy forms do not leave their words.
* `overflow_of_blocks`: neither step nor a switch halts, unless there are more blocks than a word
  counts.
* `halted_of_blocks`: where there are, every hibernation on a machine with nothing out of order
  halts.
-/

namespace CellVisor

open SimMachine

/-! ## The number of blocks -/

/-- A cell that has an image has the number of its blocks. -/
def Cells.Imaged (cells : Cells) : Prop :=
  ∀ id, (cells.get id).hasImage = true →
    (cells.get id).blocks.toNat = Image.blockCount (cells.get id).memory.size cells.blockSize

section Imaged

theorem imaged_fresh (config : Config) (topology : Topology) :
    (Cells.fresh config topology).Imaged := by
  intro id h
  cases id <;> cases h

/-- A hibernated cell has the number of the blocks that were copied. -/
theorem blocks_of_hibernate_ok {host after : Host SimMachine} {id : CellId} {log : List Notice}
    (h : Host.hibernate id host = ⟨.ok (), after, log⟩) :
    (after.cells.get id).blocks.toNat =
      Image.blockCount (host.cells.get id).memory.size host.cells.blockSize := by
  have hcases := Host.hibernate_cases id host
  rw [h] at hcases
  cases hcases with
  | hibernated _ _ _ copy =>
    rw [Cells.get_set_self]
    exact Image.toNat_of_copy copy

/-- A hibernation counts the blocks of the image; nothing else changes the image of a cell. -/
theorem Cell.Changed.counted {blockSize : UInt64} {id : CellId} {cell after : Cell}
    {moves : List (CellState × CellState)} (hchanged : Changed blockSize id cell moves after)
    (h : cell.hasImage = true → cell.blocks.toNat = Image.blockCount cell.memory.size blockSize) :
    after.hasImage = true →
      after.blocks.toNat = Image.blockCount after.memory.size blockSize := by
  cases hchanged with
  | kept | failed | started | parked | resumed | taken | uncopied => exact h
  | hibernated _ counted => exact fun _ => counted

theorem imaged_act (operation : Host.Operation) :
    Action.Keeps (fun host => host.cells.Imaged) operation.act := by
  intro host h id
  have hblank := congrArg Cells.blockSize (operation.blank_act host)
  rw [show (operation.act host).state.cells.blockSize = host.cells.blockSize from hblank]
  exact (operation.changed_act host id).counted (h id)

end Imaged

/-! ## The number of switches -/

theorem clock_ge_act (bound : Nat) (operation : Host.Operation) :
    Action.Keeps (fun host : Host SimMachine => bound ≤ host.machine.clock.toNat)
      operation.act := by
  intro host h
  cases operation with
  | boot => exact Host.kept_boot (stable_clock_ge bound _ _) h
  | hibernate id => exact clock_ge_hibernate bound id host h
  | resume id => exact clock_ge_resume bound id host h
  | fail id =>
    show bound ≤ (Host.markFailed id host).state.machine.clock.toNat
    rw [Host.machine_markFailed]
    exact h
  | disturb disturbance =>
    show bound ≤ (disturbance.apply host.machine).clock.toNat
    rw [Sim.Disturbance.clock_apply]
    exact h

namespace SharedHost

/-- The clock has gone on for ten microseconds at least with each switch. -/
def Ticked (shared : SharedHost SimMachine) : Prop :=
  10 * shared.coordinator.switches.toNat ≤ shared.host.machine.clock.toNat

theorem ticked_act (operation : Operation) : Action.Keeps Ticked operation.act := by
  intro shared h
  cases operation with
  | cells operation => exact clock_ge_act _ operation shared.host h
  | publish => exact h
  | switch =>
    have hhibernate := clock_ge_act (10 * shared.coordinator.switches.toNat)
      (.hibernate shared.coordinator.active)
    have hresume := clock_ge_act (10 * shared.coordinator.switches.toNat)
      (.resume shared.coordinator.active.other)
    show Ticked (SharedHost.switch.discard shared).state
    rw [Action.state_discard]
    have hcases := switch_cases shared
    generalize SharedHost.switch shared = reply at hcases ⊢
    cases hcases with
    | refused | targetless => exact h
    | hibernateHalted _ hibernate | aborted _ hibernate => exact hhibernate.of_eq h hibernate
    | resumeHalted _ hibernate resume | failed _ hibernate resume
    | uncounted _ hibernate resume | clockless _ hibernate resume =>
      exact hresume.of_eq (hhibernate.of_eq h hibernate) resume
    | @completed _ host _ _ switches now _ _ hibernate resume count clock =>
      have hlast : 10 * shared.coordinator.switches.toNat ≤ host.machine.clock.toNat :=
        hresume.of_eq (hhibernate.of_eq h hibernate) resume
      obtain ⟨htime, rfl⟩ := now_eq_some.1 clock
      have hcount := Word.toNat_add? count
      have hone : (1 : UInt64).toNat = 1 := rfl
      show 10 * switches.toNat ≤ now.toNat
      omega

end SharedHost

/-! ## What halts -/

/-- The sums that a copy between the memory of a cell and its store forms at `offset` are words. -/
def CellLayout.InWords (layout : CellLayout) (block offset : UInt64) : Prop :=
  (Word.add? layout.store.base offset).isSome = true ∧
    (Word.add? layout.memory.base offset).isSome = true ∧
    (Word.add? offset (min block (layout.memory.size - offset))).isSome = true

theorem Config.IsSound.inWords {config : Config} (hsound : config.IsSound) (id : CellId)
    {offset : UInt64} (inside : offset ≤ (config.cells.get id).memory.size) :
    (config.cells.get id).InWords config.blockSize offset := by
  rw [UInt64.le_iff_toNat_le] at inside
  have hmemory := hsound.memory_fits id
  have hstore := hsound.store_fits id
  have hlarge := hsound.store_large id
  have hchunk := Image.toNat_chunk config.blockSize inside
  simp only [CellLayout.InWords, Option.isSome_iff_ne_none, ne_eq, Word.add?_eq_none_iff,
    Nat.not_le]
  omega

section Halts

variable {config : Config} {topology : Topology} {host : Host SimMachine}
  {shared : SharedHost SimMachine} {id : CellId} (hsound : config.IsSound)
  (hsplit : topology.IsSplit)

/-- An image that is there was counted. -/
theorem few_of_imaged {cells : Cells} (hlaid : cells.Laid config topology)
    (himaged : cells.Imaged) (image : (cells.get id).hasImage = true) :
    Image.blockCount (config.cells.get id).memory.size config.blockSize < UInt32.size := by
  have hcount := himaged id image
  rw [hlaid.memory, hlaid.blockSize] at hcount
  rw [← hcount]
  exact (cells.get id).blocks.toNat_lt_size

include hsound hsplit

theorem many_of_hibernate_fault (hlaid : host.cells.Laid config topology)
    (hclock : host.machine.clock.toNat + config.freezeTimeout.toNat + 20 < UInt64.size)
    {fault : Fault} (h : (Host.hibernate id host).outcome = .fault fault) :
    UInt32.size ≤ Image.blockCount (config.cells.get id).memory.size config.blockSize := by
  have running : host.cells.state id = .running := by
    have hcases := Host.hibernate_cases id host
    generalize Host.hibernate id host = reply at hcases h
    cases hcases with
    | freezeHalted running | copyHalted running => exact running
    | refused | unfrozen | crowded | uncopied | hibernated => cases h
  refine Nat.not_lt.1 fun few => ?_
  have hending := (hibernate_ending hsound hsplit few hlaid running).2
  rw [h] at hending
  cases hending with
  | halted inTime spent => omega

theorem resume_ne_fault (hlaid : host.cells.Laid config topology) (himaged : host.cells.Imaged)
    (hclock : host.machine.clock.toNat + config.freezeTimeout.toNat + 20 < UInt64.size)
    (id : CellId) : (Host.resume id host).Returned := by
  intro fault h
  have ready : Host.Ready id host.cells := by
    have hcases := Host.resume_cases id host
    generalize Host.resume id host = reply at hcases h
    cases hcases with
    | copyHalted ready | thawHalted ready => exact ready
    | refused | contended | coreless | uncopied | unthawed | resumed => cases h
  have hending := (resume_ending hsound hsplit (few_of_imaged hlaid himaged) hlaid ready).2
  rw [h] at hending
  cases hending with
  | halted inTime spent => omega

theorem many_of_switch_fault (hlaid : shared.host.cells.Laid config topology)
    (himaged : shared.host.cells.Imaged) (hticked : shared.Ticked)
    (hclock : shared.host.machine.clock.toNat + 2 * config.freezeTimeout.toNat + 50 < UInt64.size)
    {fault : Fault} (h : (SharedHost.switch shared).outcome = .fault fault) :
    UInt32.size ≤ Image.blockCount
      (config.cells.get shared.coordinator.active).memory.size config.blockSize := by
  refine Nat.not_lt.1 fun few => ?_
  have hturnout := SharedHost.turnout_of_counts hsound hsplit few (few_of_imaged hlaid himaged)
    hlaid
  rw [h] at hturnout
  cases hturnout with
  | halted _ inTime spent =>
    unfold SharedHost.Ticked at hticked
    omega

/-- Where there are more blocks than a word counts, a hibernation with nothing out of order
halts. -/
theorem halted_of_blocks (fit : host.Fit config topology)
    (hclock : host.machine.clock.toNat + 10 < UInt64.size)
    (running : host.cells.state id = .running)
    (many : UInt32.size ≤ Image.blockCount (config.cells.get id).memory.size config.blockSize) :
    (Host.hibernate id host).outcome = .fault .overflow := by
  have hunparked := fit.agreeing id
  rw [running] at hunparked
  have hcounted :=
    (hibernate_of_prompt hsound hsplit fit.laid fit.prompt hclock running hunparked).2
  generalize (Host.hibernate id host).outcome = outcome at hcounted ⊢
  cases hcounted with
  | numbered few => omega
  | overrun => rfl

end Halts

namespace SharedHost

section Reachable

variable {config : Config} {topology : Topology} {machine : SimMachine} {coordinator : Coordinator}
  {shared : SharedHost SimMachine}

theorem counted_of_reachable (unused : coordinator.switches = 0)
    (reachable : Action.Reachable Operation.act
      ⟨⟨machine, .fresh config topology⟩, coordinator⟩ shared) :
    shared.host.cells.Laid config topology ∧ shared.host.cells.Imaged ∧ shared.Ticked := by
  refine reachable.kept (P := fun shared => shared.host.cells.Laid config topology ∧
    shared.host.cells.Imaged ∧ shared.Ticked) ?_ ⟨Cells.laid_fresh config topology,
      imaged_fresh config topology, ?_⟩
  · rintro operation before - ⟨hlaid, himaged, hticked⟩
    exact ⟨Operation.keeps_laid config topology operation before hlaid,
      Operation.keeps_act imaged_act (fun _ h => h) operation before himaged,
      ticked_act operation before hticked⟩
  · show 10 * coordinator.switches.toNat ≤ machine.clock.toNat
    rw [unused]
    exact Nat.zero_le _

/-- In whatever comes of a fresh machine, while the clock is far from its end, a resumption never
halts, and a hibernation or a switch does only where the cell to be hibernated has more blocks than
a word counts. No sum of a copy leaves its word, and a hibernation that succeeds has counted the
blocks of the memory, the last one cut to what is left. -/
theorem overflow_of_blocks {σ : Type} {state : σ} {leaves : Leaves}
    (hvalid : config.validate = .ok ())
    (hprobe : (Topology.probe leaves config.linuxCores state).outcome = .ok topology)
    (unused : coordinator.switches = 0)
    (reachable : Action.Reachable Operation.act
      ⟨⟨machine, .fresh config topology⟩, coordinator⟩ shared)
    (hclock : shared.host.machine.clock.toNat + 2 * config.freezeTimeout.toNat + 50 <
      UInt64.size) (id : CellId) :
    (∀ fault, (Host.hibernate id shared.host).outcome = .fault fault →
        UInt32.size ≤ Image.blockCount (config.cells.get id).memory.size config.blockSize) ∧
      ((Host.hibernate id shared.host).outcome = .ok () →
        ((Host.hibernate id shared.host).state.cells.get id).blocks.toNat =
          ((config.cells.get id).memory.size.toNat + config.blockSize.toNat - 1) /
            config.blockSize.toNat) ∧
      (∀ fault, (Host.resume id shared.host).outcome ≠ .fault fault) ∧
      (∀ fault, (switch shared).outcome = .fault fault →
        UInt32.size ≤ Image.blockCount
          (config.cells.get shared.coordinator.active).memory.size config.blockSize) ∧
      ∀ offset ≤ (config.cells.get id).memory.size,
        (config.cells.get id).InWords config.blockSize offset := by
  have hsound := Config.isSound_of_validate hvalid
  have hsplit := Topology.isSplit_of_probe hprobe
  obtain ⟨hlaid, himaged, hticked⟩ := counted_of_reachable unused reachable
  refine ⟨fun fault => many_of_hibernate_fault hsound hsplit hlaid (by omega), fun hok => ?_,
    resume_ne_fault hsound hsplit hlaid himaged (by omega) id,
    fun fault => many_of_switch_fault hsound hsplit hlaid himaged hticked hclock,
    fun offset => hsound.inWords id⟩
  have hreply : Host.hibernate id shared.host =
      ⟨.ok (), (Host.hibernate id shared.host).state, (Host.hibernate id shared.host).log⟩ := by
    rw [← hok]
  rw [blocks_of_hibernate_ok hreply, hlaid.memory, hlaid.blockSize,
    Image.blockCount_eq _ hsound.block_pos]

/-- Linux runs, and would be hibernated in four blocks. -/
theorem overflow_of_blocks_compact :
    let shared := Operation.run [.cells .boot] compact
    (Host.hibernate .linux shared.host).outcome = .ok () ∧
      ((Host.hibernate .linux shared.host).state.cells.get .linux).blocks.toNat = 4 := by
  intro shared
  have hprobe : (Topology.probe (SimMachine.ofCores 4).leaf Config.compact.linuxCores ()).outcome =
      .ok .halved := by decide
  have reachable : Action.Reachable Operation.act compact shared :=
    Action.reachable_of_attemptEach (by decide +kernel)
  have hok : (Host.hibernate .linux shared.host).outcome = .ok () := by decide +kernel
  refine ⟨hok, ?_⟩
  rw [(overflow_of_blocks validate_compact hprobe rfl reachable (by decide +kernel) .linux).2.1 hok]
  decide

end Reachable
end SharedHost

/-- Blocks of one byte, and one more of them in the memory of linux than a word counts. -/
def Config.fine : Config :=
  { compact with
    guestMemory := 4 * gib + 8 * mib
    cells := { compact.cells with
      linux := { memory := ⟨4 * gib, 4 * gib⟩, store := ⟨8 * gib, 4 * gib⟩ } }
    blockSize := 1 }

/-- Such a configuration is accepted, and the first hibernation of linux halts. -/
theorem hibernate_halts_fine :
    Config.fine.validate = .ok () ∧
      (Topology.probe (SimMachine.ofCores 4).leaf Config.fine.linuxCores ()).outcome =
        .ok .halved ∧
      ∃ host, Action.Reachable Host.Operation.act ⟨.ofCores 4, .fresh .fine .halved⟩ host ∧
        host.machine.clock.toNat = 10 ∧
        (Host.hibernate .linux host).outcome = .fault .overflow := by
  have hvalid : Config.fine.validate = .ok () := rfl
  have hprobe : (Topology.probe (SimMachine.ofCores 4).leaf Config.fine.linuxCores ()).outcome =
      .ok .halved := by decide
  have hsplit := Topology.isSplit_of_probe hprobe
  have hprompt : (SimMachine.ofCores 4).Prompt := ⟨fun _ => ⟨rfl, rfl⟩, rfl⟩
  have hfit : (⟨.ofCores 4, .fresh .fine .halved⟩ : Host SimMachine).Fit .fine .halved :=
    ⟨Cells.laid_fresh _ _, agreeing_fresh fun _ _ => rfl, hprompt⟩
  obtain ⟨host, log, hboot, hbooted, hclock, running, -⟩ :=
    hfit.boot hsplit (by decide) rfl rfl fun _ _ => rfl
  have hact : Host.Operation.act .boot ⟨.ofCores 4, .fresh .fine .halved⟩ =
      ⟨.ok (), host, log⟩ := hboot
  have hten : host.machine.clock.toNat = 10 := hclock
  refine ⟨hvalid, hprobe, host, Action.Reachable.start.step_of_eq .boot hact nofun, hten, ?_⟩
  exact halted_of_blocks (Config.isSound_of_validate hvalid) hsplit hbooted
    (by rw [hten]; decide) running (by decide)

end CellVisor
