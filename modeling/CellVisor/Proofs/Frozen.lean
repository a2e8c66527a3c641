import CellVisor.Proofs.Agreement
import CellVisor.Proofs.Cell.Events
import CellVisor.Proofs.Config.Layout

/-!
# CellVisor.Proofs.Frozen

Memory is copied only while the cell that it belongs to is frozen.

* `Traced`: the events since `start`, each of them with the cores that were parked when it happened.
* `traced_hibernate`, `traced_resume`, `traced_switch`: whenever bytes of a cell are copied, its
  cores are parked. A hibernation parks them before it copies; a resumption finds them parked, which
  is what `Resting` carries from the operations before it.
* `copies_frozen`: this in every state that can be reached, with the order of the events of both
  steps.
-/

namespace CellVisor

open SimMachine

/-! ## Moments -/

/-- The events since `start` lead to the cores that are parked now, and each of them had `Q` with
the cores that were parked when it happened. -/
def Traced (Q : (UInt32 → Bool) → SimEvent → Prop) (start machine : SimMachine) : Prop :=
  ∃ events, machine.events = start.events ++ events ∧
    machine.isParked = events.foldl SimEvent.park start.isParked ∧
    ∀ earlier event, earlier ++ [event] <+: events →
      Q (earlier.foldl SimEvent.park start.isParked) event

section Traced

variable {Q : (UInt32 → Bool) → SimEvent → Prop} {start machine next : SimMachine}

theorem traced_refl : Traced Q start start :=
  ⟨[], by simp, rfl, by simp⟩

theorem Traced.of_eq (h : Traced Q start machine) (hevents : next.events = machine.events)
    (hparked : next.isParked = machine.isParked) : Traced Q start next := by
  obtain ⟨events, hmachine, hleads, hevery⟩ := h
  exact ⟨events, hevents.trans hmachine, hparked.trans hleads, hevery⟩

theorem Traced.append (h : Traced Q start machine) {event : SimEvent}
    (hevents : next.events = machine.events ++ [event])
    (hparked : next.isParked = event.park machine.isParked) (hevent : Q machine.isParked event) :
    Traced Q start next := by
  obtain ⟨events, hmachine, hleads, hevery⟩ := h
  refine ⟨events ++ [event], ?_, ?_, fun earlier last hprefix => ?_⟩
  · rw [hevents, hmachine, List.append_assoc]
  · rw [hparked, hleads, List.foldl_append]
    rfl
  · rcases List.prefix_concat_iff.1 hprefix with hwhole | hearlier
    · obtain ⟨rfl, hlast⟩ := List.append_inj' hwhole rfl
      obtain rfl := List.singleton_inj.1 hlast
      rw [← hleads]
      exact hevent
    · exact hevery earlier last hearlier

/-- Where no signal and no answer matters to `Q`, a rendezvous is traced. -/
theorem stable_traced (h : ∀ parked core signal, Q parked (.signal core signal) ∧
    Q parked (.ack core signal)) (cores : CoreRange) (signal : Signal) :
    Barrier.Stable (Traced Q start) cores signal where
  signalled := fun _ hsignal htraced =>
    htraced.append (events_of_signalCore hsignal) (isParked_of_signalCore hsignal) (h _ _ _).1
  asked := by
    intro core machine _ htraced
    rcases recorded_acknowledged core signal machine with ⟨hevents, hparked⟩ | ⟨hevents, hparked⟩
    · exact htraced.append hevents hparked (h _ _ _).2
    · exact htraced.of_eq hevents hparked
  timed := by
    intro machine time next clock htraced
    obtain ⟨-, rfl⟩ := now_eq_some.1 clock
    exact htraced

end Traced

/-! ## Whose bytes are copied -/

namespace SimEvent

/-- The event reads or writes a byte of `extent`. -/
def Touches (extent : Extent) : SimEvent → Prop
  | copy target source size => ∃ address : UInt64, extent.contains address = true ∧
      ((target.toNat ≤ address.toNat ∧ address.toNat < target.toNat + size.toNat) ∨
        (source.toNat ≤ address.toNat ∧ address.toNat < source.toNat + size.toNat))
  | _ => False

/-- The event copies bytes of the memory or of the store of the cell `id`. -/
def BelongsTo (config : Config) (id : CellId) (event : SimEvent) : Prop :=
  event.Touches (config.cells.get id).memory ∨ event.Touches (config.cells.get id).store

end SimEvent

/-- The cores of the cell that an event belongs to are parked. -/
def Frozen (config : Config) (topology : Topology) (parked : UInt32 → Bool)
    (event : SimEvent) : Prop :=
  ∀ id, event.BelongsTo config id → AllParked (topology.ranges.get id) parked

section Owner

variable {config : Config} {topology : Topology} {start : SimMachine} {id : CellId}
  {source target : Config.Holding}

/-- A block of the image of a cell belongs to no other cell. -/
theorem owner_of_block (hsound : config.IsSound) (hsource : source.owner? = some id)
    (htarget : target.owner? = some id) {blockTarget blockSource chunk : UInt64}
    (hblock : Image.IsBlock (config.extentOf target).base (config.extentOf source).base
      (config.cells.get id).memory.size blockTarget blockSource chunk) {cell : CellId}
    (h : (SimEvent.copy blockTarget blockSource chunk).BelongsTo config cell) : cell = id := by
  obtain ⟨holding, howner, address, hinside, hcopied⟩ :
      ∃ holding : Config.Holding, holding.owner? = some cell ∧
        (SimEvent.copy blockTarget blockSource chunk).Touches (config.extentOf holding) := by
    rcases h with h | h
    · exact ⟨.memory cell, rfl, h⟩
    · exact ⟨.store cell, rfl, h⟩
  obtain ⟨offset, htargetBlock, hsourceBlock, hend⟩ := hblock
  have hsame : holding.owner? = some id := by
    rcases hcopied with hwritten | hread
    · have hpart := hsound.contains_of_block id htarget htargetBlock hend hwritten
      rw [hsound.eq_of_contains hinside hpart, htarget]
    · have hpart := hsound.contains_of_block id hsource hsourceBlock hend hread
      rw [hsound.eq_of_contains hinside hpart, hsource]
  exact Option.some.inj (howner.symm.trans hsame)

/-- While the cores of a cell are parked, copies from one of its parts to another are traced. -/
theorem keeps_traced_copy (hsound : config.IsSound) (source target : Config.Holding)
    (hsource : source.owner? = some id) (htarget : target.owner? = some id) (block : UInt64) :
    Action.Keeps (fun machine => Traced (Frozen config topology) start machine ∧
        AllParked (topology.ranges.get id) machine.isParked)
      (Image.copy (config.extentOf target).base (config.extentOf source).base
        (config.cells.get id).memory.size block) := by
  refine Image.keeps_copy ?_
  rintro blockTarget blockSource chunk machine hblock ⟨htraced, hparked⟩
  have hcopied := SimMachine.copy_cases blockTarget blockSource chunk machine
  show Traced _ start (SimMachine.copy blockTarget blockSource chunk machine).2 ∧
    AllParked _ (SimMachine.copy blockTarget blockSource chunk machine).2.isParked
  generalize SimMachine.copy blockTarget blockSource chunk machine = reply at hcopied ⊢
  cases hcopied with
  | failed => exact ⟨htraced, hparked⟩
  | done =>
    refine ⟨htraced.append List.reverse_cons rfl fun cell hcell => ?_, hparked⟩
    rw [owner_of_block hsound hsource htarget hblock hcell]
    exact hparked

theorem stable_frozen (config : Config) (topology : Topology) (start : SimMachine)
    (cores : CoreRange) (signal : Signal) :
    Barrier.Stable (Traced (Frozen config topology) start) cores signal :=
  stable_traced (fun _ _ _ => ⟨fun _ h => by rcases h with h | h <;> exact h.elim,
    fun _ h => by rcases h with h | h <;> exact h.elim⟩) cores signal

end Owner

/-! ## Who sleeps -/

/-- Every core of a hibernated cell is parked. -/
def Resting (topology : Topology) (host : Host SimMachine) : Prop :=
  ∀ id, host.cells.state id = .hibernated →
    AllParked (topology.ranges.get id) host.machine.isParked

section Resting

variable {config : Config} {topology : Topology} {host after : Host SimMachine} {id : CellId}

/-- A step that leaves the other cell and its cores lets the cells rest, if it does so with its own
cell. -/
theorem Resting.of_step (h : Resting topology host)
    (hother : after.cells.get id.other = host.cells.get id.other)
    (hparked : ∀ core, (topology.ranges.get id.other).contains core = true →
      after.machine.isParked core = host.machine.isParked core)
    (hown : after.cells.state id = .hibernated →
      AllParked (topology.ranges.get id) after.machine.isParked) : Resting topology after := by
  intro cell hibernated
  rcases CellId.eq_or_eq_other cell id with rfl | rfl
  · exact hown hibernated
  · rw [Cells.state, hother] at hibernated
    intro core hcore
    rw [hparked core hcore]
    exact h id.other hibernated core hcore

variable (hsplit : topology.IsSplit) (hlaid : host.cells.Laid config topology)

include hsplit hlaid

theorem resting_hibernate (h : Resting topology host) (id : CellId)
    (returned : (Host.hibernate id host).Returned) :
    Resting topology (Host.hibernate id host).state := by
  refine h.of_step (Host.get_other_hibernate id host)
    (fun _ => (aloof_hibernate id host).other hsplit hlaid) ?_
  have hparked := allParked_of_hibernate hlaid id
  have hcases := Host.hibernate_cases id host
  generalize Host.hibernate id host = reply at hcases returned hparked ⊢
  cases hcases with
  | refused => exact h id
  | freezeHalted | copyHalted => exact absurd rfl (returned _)
  | unfrozen | crowded | uncopied => simp
  | hibernated => exact fun _ => hparked rfl

theorem resting_resume (h : Resting topology host) (id : CellId)
    (returned : (Host.resume id host).Returned) :
    Resting topology (Host.resume id host).state := by
  refine h.of_step (Host.get_other_resume id host)
    (fun _ => (aloof_resume id host).other hsplit hlaid) ?_
  have hcases := Host.resume_cases id host
  generalize Host.resume id host = reply at hcases returned ⊢
  cases hcases with
  | refused | contended | coreless => exact h id
  | copyHalted | thawHalted => exact absurd rfl (returned _)
  | uncopied | unthawed | resumed => simp

omit hsplit in
theorem resting_boot (h : Resting topology host) (returned : (Host.boot host).Returned) :
    Resting topology (Host.boot host).state := by
  have hcases := Host.boot_cases host
  generalize Host.boot host = reply at hcases returned ⊢
  cases hcases with
  | refused => exact h
  | halted => exact absurd rfl (returned _)
  | unparked =>
    intro id hibernated
    cases id <;> cases hibernated
  | parked _ _ freeze =>
    intro id hibernated
    cases id with
    | linux => cases hibernated
    | windows =>
      have hparked := allParked_of_call freeze
      rw [hlaid.cores] at hparked
      exact hparked

theorem resting_act (h : Resting topology host) (operation : Host.Operation)
    (returned : (operation.act host).Returned) :
    Resting topology (operation.act host).state := by
  cases operation with
  | boot => exact resting_boot hlaid h returned
  | hibernate id => exact resting_hibernate hsplit hlaid h id returned
  | resume id => exact resting_resume hsplit hlaid h id returned
  | fail id =>
    have hmachine := Host.machine_markFailed id host
    refine h.of_step (Host.get_other_markFailed id host)
      (fun core _ => congrArg (·.isParked core) hmachine) fun hibernated => ?_
    have hfailed := Host.state_markFailed id host
    cases hfailed.symm.trans hibernated
  | disturb disturbance =>
    intro cell hibernated
    show AllParked _ (disturbance.apply host.machine).isParked
    rw [Sim.Disturbance.isParked_apply]
    exact h cell hibernated

end Resting

/-! ## Operations -/

section Operations

variable {config : Config} {topology : Topology} {host : Host SimMachine} {start : SimMachine}

theorem traced_hibernate (hsound : config.IsSound) (hlaid : host.cells.Laid config topology)
    (id : CellId) (h : Traced (Frozen config topology) start host.machine) :
    Traced (Frozen config topology) start (Host.hibernate id host).state.machine := by
  have hfreeze := Barrier.keeps_rendezvous
    (stable_frozen config topology start (host.cells.get id).cores .freeze) host.cells.barrier
  have hcopy : Action.Keeps (fun machine => Traced (Frozen config topology) start machine ∧
      AllParked (topology.ranges.get id) machine.isParked) (host.cells.saveImage id) := by
    unfold Cells.saveImage
    rw [hlaid.memory, hlaid.store]
    exact keeps_traced_copy hsound (.memory id) (.store id) rfl rfl _
  have hcases := Host.hibernate_cases id host
  generalize Host.hibernate id host = reply at hcases ⊢
  cases hcases with
  | refused => exact h
  | freezeHalted _ freeze | unfrozen _ freeze | crowded _ freeze => exact hfreeze.of_eq h freeze
  | copyHalted _ freeze _ copy | uncopied _ freeze _ copy | hibernated _ freeze _ copy =>
    have hparked := allParked_of_call freeze
    rw [hlaid.cores] at hparked
    exact (hcopy.of_eq ⟨hfreeze.of_eq h freeze, hparked⟩ copy).1

/-- A resumption copies at once, so it is the rest of its cell that has its cores parked. -/
theorem traced_resume (hsound : config.IsSound) (hlaid : host.cells.Laid config topology)
    (resting : Resting topology host) (id : CellId)
    (h : Traced (Frozen config topology) start host.machine) :
    Traced (Frozen config topology) start (Host.resume id host).state.machine := by
  have hthaw := Barrier.keeps_rendezvous
    (stable_frozen config topology start (host.cells.get id).cores .thaw) host.cells.barrier
  have hcopy : Action.Keeps (fun machine => Traced (Frozen config topology) start machine ∧
      AllParked (topology.ranges.get id) machine.isParked) (host.cells.loadImage id) := by
    unfold Cells.loadImage
    rw [hlaid.memory, hlaid.store]
    exact keeps_traced_copy hsound (.store id) (.memory id) rfl rfl _
  have hset : ∀ {core : UInt32} {context : Context} {machine : SimMachine},
      Traced (Frozen config topology) start machine ∧
          AllParked (topology.ranges.get id) machine.isParked →
        Traced (Frozen config topology) start (machine.setContext core context) ∧
          AllParked (topology.ranges.get id) (machine.setContext core context).isParked := by
    intro core context machine h
    refine ⟨h.1.of_eq (events_setContext _ _ _) (isParked_setContext _ _ _), ?_⟩
    rw [isParked_setContext]
    exact h.2
  have hcases := Host.resume_cases id host
  generalize Host.resume id host = reply at hcases ⊢
  cases hcases with
  | refused | contended | coreless => exact h
  | copyHalted ready _ copy | uncopied ready _ copy =>
    exact (hcopy.of_eq ⟨h, resting id ready.hibernated⟩ copy).1
  | thawHalted ready load thaw | unthawed ready load thaw | resumed ready load thaw =>
    have hloaded := Host.kept_loaded hcopy hset load ⟨h, resting id ready.hibernated⟩
    exact hthaw.of_eq hloaded.1 thaw

theorem traced_act (hsound : config.IsSound) (hlaid : host.cells.Laid config topology)
    (resting : Resting topology host) (operation : Host.Operation)
    (h : Traced (Frozen config topology) start host.machine) :
    Traced (Frozen config topology) start (operation.act host).state.machine := by
  cases operation with
  | boot => exact Host.kept_boot (stable_frozen config topology start _ _) h
  | hibernate id => exact traced_hibernate hsound hlaid id h
  | resume id => exact traced_resume hsound hlaid resting id h
  | fail id =>
    have hmachine := Host.machine_markFailed id host
    exact h.of_eq (congrArg SimMachine.events hmachine) (congrArg SimMachine.isParked hmachine)
  | disturb disturbance =>
    exact h.of_eq (Sim.Disturbance.events_apply _ _) (Sim.Disturbance.isParked_apply _ _)

theorem traced_switch (hsound : config.IsSound) (hsplit : topology.IsSplit)
    {shared : SharedHost SimMachine} (hlaid : shared.host.cells.Laid config topology)
    (resting : Resting topology shared.host)
    (h : Traced (Frozen config topology) start shared.host.machine) :
    Traced (Frozen config topology) start
      (SharedHost.switch shared).state.host.machine := by
  have hfirst := traced_hibernate hsound hlaid shared.coordinator.active h
  have hblank := Host.blank_hibernate shared.coordinator.active shared.host
  have hrests := resting_hibernate hsplit hlaid resting shared.coordinator.active
  have hcases := SharedHost.switch_cases shared
  generalize SharedHost.switch shared = reply at hcases ⊢
  cases hcases with
  | refused | targetless => exact h
  | hibernateHalted _ hibernate | aborted _ hibernate =>
    rw [hibernate] at hfirst
    exact hfirst
  | resumeHalted _ hibernate resume | failed _ hibernate resume
  | uncounted _ hibernate resume | clockless _ hibernate resume =>
    rw [hibernate] at hfirst hblank hrests
    have hsecond := traced_resume hsound (hlaid.of_blank_eq hblank) (hrests nofun)
      shared.coordinator.active.other hfirst
    rw [resume] at hsecond
    exact hsecond
  | completed _ hibernate resume _ clock =>
    rw [hibernate] at hfirst hblank hrests
    have hsecond := traced_resume hsound (hlaid.of_blank_eq hblank) (hrests nofun)
      shared.coordinator.active.other hfirst
    rw [resume] at hsecond
    obtain ⟨-, rfl⟩ := now_eq_some.1 clock
    exact hsecond.of_eq rfl rfl

end Operations

/-! ## Every state that can be reached -/

section Reachable

variable {config : Config} {topology : Topology} {machine : SimMachine}
  {coordinator : Coordinator} {shared : SharedHost SimMachine}

theorem resting_of_reachable (hsplit : topology.IsSplit)
    (reachable : Action.Reachable SharedHost.Operation.act
      ⟨⟨machine, .fresh config topology⟩, coordinator⟩ shared) :
    shared.host.cells.Laid config topology ∧ Resting topology shared.host := by
  have hfresh : Resting topology ⟨machine, .fresh config topology⟩ := by
    intro id hibernated
    cases id <;> cases hibernated
  refine reachable.kept (P := fun shared => shared.host.cells.Laid config topology ∧
    Resting topology shared.host) ?_ ⟨Cells.laid_fresh config topology, hfresh⟩
  rintro operation shared returned h
  refine SharedHost.Operation.kept_of_returned
    (P := fun host => host.cells.Laid config topology ∧ Resting topology host) ?_ ?_
    operation returned h
  · rintro operation host returned ⟨hlaid, resting⟩
    exact ⟨Host.Operation.keeps_laid config topology operation host hlaid,
      resting_act hsplit hlaid resting operation returned⟩
  · intro host now next clock h
    obtain ⟨-, rfl⟩ := now_eq_some.1 clock
    exact h

/-- Memory is copied only while the cell that it belongs to is frozen, in whatever comes of a fresh
machine and the cells of an accepted configuration:

* at the moment of every copy that an operation makes, even one that fails or halts, every core of
  the cell whose bytes are copied is parked;
* a hibernation sends a freeze to each core of its cell, in ascending order, and copies only when
  each of them has acknowledged it once; where one has not, it copies nothing and the contexts that
  were saved before stay;
* a resumption copies first, and thaws after that. -/
theorem copies_frozen (hvalid : config.validate = .ok ()) {σ : Type} {state : σ} {leaves : Leaves}
    (hprobe : (Topology.probe leaves config.linuxCores state).outcome = .ok topology)
    (reachable : Action.Reachable SharedHost.Operation.act
      ⟨⟨machine, .fresh config topology⟩, coordinator⟩ shared) :
    (∀ operation, Traced (Frozen config topology) shared.host.machine
        (SharedHost.Operation.act operation shared).state.host.machine) ∧
      (∀ id, (topology.ranges.get id).toList.Pairwise (· < ·) ∧
        Freezes id (topology.ranges.get id) shared.host (Host.hibernate id shared.host).state) ∧
      ∀ id, ThawsLast (topology.ranges.get id) shared.host.machine
        (Host.resume id shared.host).state.machine := by
  have hsound := Config.isSound_of_validate hvalid
  have hsplit := Topology.isSplit_of_probe hprobe
  obtain ⟨hlaid, resting⟩ := resting_of_reachable hsplit reachable
  have hbounded : ∀ id, (shared.host.cells.get id).cores.stop.toNat ≤ maxCores := by
    intro id
    rw [hlaid.cores]
    exact hsplit.bounded id
  refine ⟨?_, fun id => ⟨CoreRange.pairwise_toList _, ?_⟩, fun id => ?_⟩
  · intro operation
    cases operation with
    | cells operation => exact traced_act hsound hlaid resting operation traced_refl
    | publish => exact traced_refl
    | switch =>
      show Traced _ _ (SharedHost.switch.discard shared).state.host.machine
      rw [Action.state_discard]
      exact traced_switch hsound hsplit hlaid resting traced_refl
  · rw [← hlaid.cores]
    exact freezes_hibernate id (hbounded id)
  · rw [← hlaid.cores]
    exact thaws_resume id (hbounded id)

/-- A switch to windows and back, of which the second one waits for a core that is late. -/
theorem copies_frozen_compact :
    let shared := SharedHost.Operation.run [.cells .boot, .switch,
      .cells (.disturb (.delay 3 2))] .compact
    (Host.hibernate .windows shared.host).outcome = .ok () ∧
      Freezes .windows (Topology.halved.ranges.get .windows) shared.host
        (Host.hibernate .windows shared.host).state ∧
      Traced (Frozen .compact .halved) shared.host.machine
        (SharedHost.Operation.act .switch shared).state.host.machine := by
  intro shared
  have hprobe : (Topology.probe (SimMachine.ofCores 4).leaf Config.compact.linuxCores ()).outcome =
      .ok .halved := by decide
  have reachable : Action.Reachable SharedHost.Operation.act SharedHost.compact shared :=
    Action.reachable_of_attemptEach (by decide +kernel)
  have hfrozen := copies_frozen validate_compact hprobe reachable
  exact ⟨by decide +kernel, (hfrozen.2.1 .windows).2, hfrozen.1 .switch⟩

end Reachable
end CellVisor
