import CellVisor.Proofs.Config.Layout
import CellVisor.Proofs.Image.Bytes
import CellVisor.Proofs.Operation
import CellVisor.Proofs.Sim.Kept

/-!
# CellVisor.Proofs.Confinement

What an operation on a cell may do to memory. A hibernation copies blocks of the memory of its cell
to the same places of its store, a resumption the other way, and a switch does first the one and
then the other; so every other part of memory stays as it is, also where the operation fails.

* `Confined`: the invariant of a single copy, kept by every primitive.
* `copies_confined`: in every state that can be reached, each operation moves only what it should.
-/

namespace CellVisor

open SimMachine

/-! ## One copy -/

/-- A copy, if it is one, is a block of the copy of `size` bytes from `source` to `target`. -/
def SimEvent.InBlocks (target source size : UInt64) : SimEvent → Prop
  | .copy blockTarget blockSource chunk =>
    Image.IsBlock target source size blockTarget blockSource chunk
  | _ => True

def ChangedIn (target size : UInt64) (start machine : SimMachine) : Prop :=
  ∀ address : UInt64, ¬ (target.toNat ≤ address.toNat ∧
    address.toNat < target.toNat + size.toNat) →
      machine.memory.byteAt address = start.memory.byteAt address

/-- What the copy of `size` bytes from `source` to `target`, or a part of it, may do between
`start` and `machine`: it copies blocks, and only the target changes. -/
def Confined (target source size : UInt64) (start machine : SimMachine) : Prop :=
  start.GoneOn (SimEvent.InBlocks target source size) machine ∧
    ChangedIn target size start machine

section Confined

variable {target source size : UInt64} {start : SimMachine}

theorem confined_refl : Confined target source size start start :=
  ⟨goneOn_refl, fun _ _ => rfl⟩

theorem stable_confined (cores : CoreRange) (signal : Signal) :
    Barrier.Stable (Confined target source size start) cores signal := by
  have history : Barrier.Stable (start.GoneOn (SimEvent.InBlocks target source size)) cores
      signal := stable_goneOn fun _ _ => ⟨trivial, trivial⟩
  have bytes : Barrier.Stable (ChangedIn target size start) cores signal :=
    stable_memory (fun memory => ∀ address : UInt64, ¬ (target.toNat ≤ address.toNat ∧
      address.toNat < target.toNat + size.toNat) →
        memory.byteAt address = start.memory.byteAt address) cores signal
  exact history.and bytes

theorem keeps_confined_copy (block : UInt64) :
    Action.Keeps (Confined target source size start) (Image.copy target source size block) := by
  have history : Action.Keeps (start.GoneOn (SimEvent.InBlocks target source size))
      (Image.copy target source size block) := keeps_goneOn_copy block fun h => h
  have bytes : Action.Keeps (ChangedIn target size start)
      (Image.copy target source size block) := by
    refine Image.keeps_copy fun hblock h address houtside => ?_
    exact (Image.byteAt_of_isBlock hblock houtside).trans (h address houtside)
  exact history.and bytes

theorem Confined.setContext {machine : SimMachine} (h : Confined target source size start machine)
    (core : UInt32) (context : Context) :
    Confined target source size start (machine.setContext core context) :=
  ⟨h.1.of_eq (events_setContext machine core context), h.2⟩

end Confined

/-! ## Operations -/

/-- Between `before` and `after` blocks of the image of the cell `id` are copied from one part of a
configuration to another, and no byte of any other part changes. -/
structure Transfers (config : Config) (id : CellId) (source target : Config.Holding)
    (before after : SimMachine) : Prop where
  blocks : ∃ events, after.events = before.events ++ events ∧
    ∀ blockTarget blockSource chunk, .copy blockTarget blockSource chunk ∈ events →
      ∃ offset : Nat, blockTarget.toNat = (config.extentOf target).base.toNat + offset ∧
        blockSource.toNat = (config.extentOf source).base.toNat + offset ∧
        offset + chunk.toNat ≤ (config.cells.get id).memory.size.toNat
  outside : ∀ address, (config.extentOf target).contains address = false →
    after.memory.byteAt address = before.memory.byteAt address
  others : ∀ holding, holding ≠ target → ∀ address,
    (config.extentOf holding).contains address = true →
      after.memory.byteAt address = before.memory.byteAt address

section Transfers

variable {config : Config} {id : CellId} {source target : Config.Holding}
  {before after : SimMachine}

theorem Transfers.refl : Transfers config id source target before before where
  blocks := ⟨[], by simp, by simp⟩
  outside := fun _ _ => rfl
  others := fun _ _ _ _ => rfl

theorem Transfers.of_eq {next : SimMachine} (h : Transfers config id source target before after)
    (hevents : next.events = after.events) (hmemory : next.memory = after.memory) :
    Transfers config id source target before next where
  blocks := by
    rw [hevents]
    exact h.blocks
  outside := by
    rw [hmemory]
    exact h.outside
  others := by
    rw [hmemory]
    exact h.others

/-- A confined copy between two parts is a transfer, if the target has room for it. -/
theorem Confined.transfers (hsound : config.IsSound)
    (hroom : (config.cells.get id).memory.size.toNat ≤ (config.extentOf target).size.toNat)
    (h : Confined (config.extentOf target).base (config.extentOf source).base
      (config.cells.get id).memory.size before after) :
    Transfers config id source target before after := by
  have htarget := (Extent.fits_iff _).1 (hsound.fits target)
  have outside : ∀ address, (config.extentOf target).contains address = false →
      after.memory.byteAt address = before.memory.byteAt address := by
    intro address houtside
    refine h.2 address fun hinside => ?_
    rw [← Bool.not_eq_true, Extent.contains_iff, Extent.toNat_stop] at houtside
    omega
  refine ⟨?_, outside, ?_⟩
  · obtain ⟨events, hevents, hblocks⟩ := h.1
    exact ⟨events, hevents, fun _ _ _ hmem => hblocks _ hmem⟩
  · intro holding hne address hinside
    have happart := hsound.apart holding target hne
    refine outside address ?_
    rw [Extent.contains_iff, Extent.toNat_stop] at hinside
    rw [← Bool.not_eq_true, Extent.contains_iff, Extent.toNat_stop]
    unfold Extent.Apart at happart
    omega

end Transfers

section Operations

variable {config : Config} {topology : Topology} {host : Host SimMachine}

theorem transfers_hibernate (hsound : config.IsSound) (hlaid : host.cells.Laid config topology)
    (id : CellId) :
    Transfers config id (.memory id) (.store id) host.machine
      (Host.hibernate id host).state.machine := by
  refine Confined.transfers hsound (hsound.store_large id) ?_
  refine Host.kept_hibernate (stable_confined _ _) ?_ confined_refl
  unfold Cells.saveImage
  rw [hlaid.memory, hlaid.store]
  exact keeps_confined_copy _

theorem transfers_resume (hsound : config.IsSound) (hlaid : host.cells.Laid config topology)
    (id : CellId) :
    Transfers config id (.store id) (.memory id) host.machine
      (Host.resume id host).state.machine := by
  refine Confined.transfers hsound (Nat.le_refl _) ?_
  refine Host.kept_resume (stable_confined _ _) ?_ (fun h => h.setContext _ _) confined_refl
  unfold Cells.loadImage
  rw [hlaid.memory, hlaid.store]
  exact keeps_confined_copy _

/-- A switch transfers the memory of the active cell into its store, as far as it comes, and then
the store of the other cell into its memory. -/
theorem transfers_switch (hsound : config.IsSound) {shared : SharedHost SimMachine}
    (hlaid : shared.host.cells.Laid config topology) :
    ∃ between,
      Transfers config shared.coordinator.active (.memory shared.coordinator.active)
        (.store shared.coordinator.active) shared.host.machine between ∧
      Transfers config shared.coordinator.active.other (.store shared.coordinator.active.other)
        (.memory shared.coordinator.active.other) between
        (SharedHost.switch shared).state.host.machine := by
  have hfirst := transfers_hibernate hsound hlaid shared.coordinator.active
  have hbetween := Host.blank_hibernate shared.coordinator.active shared.host
  have hcases := SharedHost.switch_cases shared
  generalize SharedHost.switch shared = reply at hcases ⊢
  cases hcases with
  | refused | targetless => exact ⟨_, .refl, .refl⟩
  | hibernateHalted _ hibernate | aborted _ hibernate =>
    rw [hibernate] at hfirst
    exact ⟨_, hfirst, .refl⟩
  | resumeHalted _ hibernate resume | failed _ hibernate resume
  | uncounted _ hibernate resume | clockless _ hibernate resume =>
    rw [hibernate] at hfirst hbetween
    have hsecond := transfers_resume hsound (hlaid.of_blank_eq hbetween)
      shared.coordinator.active.other
    rw [resume] at hsecond
    exact ⟨_, hfirst, hsecond⟩
  | completed _ hibernate resume _ clock =>
    rw [hibernate] at hfirst hbetween
    have hsecond := transfers_resume hsound (hlaid.of_blank_eq hbetween)
      shared.coordinator.active.other
    rw [resume] at hsecond
    obtain ⟨-, rfl⟩ := now_eq_some.1 clock
    exact ⟨_, hfirst, hsecond.of_eq rfl rfl⟩

end Operations

/-- In every state that operations on the cells of an accepted configuration can reach, a
hibernation transfers only from the memory of its cell to its store, a resumption only from the
store to the memory, and a switch does the one and then the other; whether they succeed or not. -/
theorem copies_confined {config : Config} (hvalid : config.validate = .ok ())
    (topology : Topology) (machine : SimMachine) (coordinator : Coordinator)
    (operations : List SharedHost.Operation) :
    let shared := SharedHost.Operation.run operations
      ⟨⟨machine, .fresh config topology⟩, coordinator⟩
    (∀ id, Transfers config id (.memory id) (.store id) shared.host.machine
      (Host.hibernate id shared.host).state.machine) ∧
    (∀ id, Transfers config id (.store id) (.memory id) shared.host.machine
      (Host.resume id shared.host).state.machine) ∧
    ∃ between,
      Transfers config shared.coordinator.active (.memory shared.coordinator.active)
        (.store shared.coordinator.active) shared.host.machine between ∧
      Transfers config shared.coordinator.active.other (.store shared.coordinator.active.other)
        (.memory shared.coordinator.active.other) between
        (SharedHost.switch shared).state.host.machine := by
  intro shared
  have hsound := Config.isSound_of_validate hvalid
  have hlaid := SharedHost.Operation.laid_of_run config topology machine coordinator operations
  exact ⟨fun id => transfers_hibernate hsound hlaid id, fun id => transfers_resume hsound hlaid id,
    transfers_switch hsound hlaid⟩

theorem copies_confined_compact :
    (Host.hibernate .linux
      (SharedHost.Operation.run [.cells .boot] .compact).host).outcome = .ok () ∧
    Transfers .compact .linux (.memory .linux) (.store .linux)
      (SharedHost.Operation.run [.cells .boot] .compact).host.machine
      (Host.hibernate .linux
        (SharedHost.Operation.run [.cells .boot] .compact).host).state.machine :=
  ⟨by decide +kernel, (copies_confined validate_compact .halved (.ofCores 4)
    SharedHost.compact.coordinator [.cells .boot]).1 .linux⟩

end CellVisor
