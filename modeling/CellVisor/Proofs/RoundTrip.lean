import CellVisor.Proofs.Confinement

/-!
# CellVisor.Proofs.RoundTrip

A cell that is hibernated and later resumed goes on as if nothing had happened.

* `Saved`: the store and the record of a cell hold the memory and the registers it had.
* `held_act`: no operation but a new hibernation of the cell, or a write to its store, takes that
  away while the cell is hibernated; so no run does.
* `resume_restores`: the resumption brings back every byte and every register.
-/

namespace CellVisor

open SimMachine

/-! ## What is saved -/

/-- The store of the cell `id` holds the memory that it had on `called`, and its record the
registers. -/
structure Saved (config : Config) (id : CellId) (called : SimMachine) (host : Host SimMachine) :
    Prop where
  image : (host.cells.get id).hasImage = true
  contexts : (host.cells.get id).saved =
    (host.cells.get id).cores.toList.map fun core => ⟨core, called.context core⟩
  bytes : ∀ address : UInt64, (config.cells.get id).store.base.toNat ≤ address.toNat →
    address.toNat < (config.cells.get id).store.base.toNat +
      (config.cells.get id).memory.size.toNat →
    host.machine.memory.byteAt address =
      called.memory.byteAt ((config.cells.get id).memory.base +
        (address - (config.cells.get id).store.base))

/-- As long as the cell `id` is hibernated, it is saved as it was on `called`. -/
structure Held (config : Config) (topology : Topology) (id : CellId) (called : SimMachine)
    (host : Host SimMachine) : Prop where
  laid : host.cells.Laid config topology
  started : host.cells.state id ≠ .initializing
  saved : host.cells.state id = .hibernated → Saved config id called host

section Saved

variable {config : Config} {topology : Topology} {id : CellId} {called : SimMachine}
  {host : Host SimMachine}

theorem Saved.of_eq {after : Host SimMachine} (h : Saved config id called host)
    (hcell : after.cells.get id = host.cells.get id)
    (hbytes : ∀ address, (config.cells.get id).store.contains address = true →
      after.machine.memory.byteAt address = host.machine.memory.byteAt address)
    (hsound : config.IsSound) : Saved config id called after where
  image := by
    rw [hcell]
    exact h.image
  contexts := by
    rw [hcell]
    exact h.contexts
  bytes := by
    intro address hlow hhigh
    have hfits := hsound.store_fits id
    have hlarge := hsound.store_large id
    have hinside : (config.cells.get id).store.contains address = true := by
      rw [Extent.contains_iff, Extent.toNat_stop]
      omega
    rw [hbytes address hinside]
    exact h.bytes address hlow hhigh

/-- Where the record of the cell stays and its store too, it stays held. -/
theorem Held.of_eq {after : Host SimMachine} (h : Held config topology id called host)
    (hblank : after.cells.blank = host.cells.blank)
    (hcell : after.cells.get id = host.cells.get id)
    (hbytes : ∀ address, (config.cells.get id).store.contains address = true →
      after.machine.memory.byteAt address = host.machine.memory.byteAt address)
    (hsound : config.IsSound) : Held config topology id called after where
  laid := h.laid.of_blank_eq hblank
  started := by
    rw [Cells.state, hcell]
    exact h.started
  saved := fun hstate => by
    rw [Cells.state, hcell] at hstate
    exact (h.saved hstate).of_eq hcell hbytes hsound

/-- A cell that runs or has failed is held, since nothing is asked of it. -/
theorem Held.of_state {after : Host SimMachine} (h : Held config topology id called host)
    (hblank : after.cells.blank = host.cells.blank)
    (hstate : after.cells.state id = .running ∨ after.cells.state id = .error) :
    Held config topology id called after where
  laid := h.laid.of_blank_eq hblank
  started := by rcases hstate with hstate | hstate <;> simp [hstate]
  saved := by rcases hstate with hstate | hstate <;> simp [hstate]

end Saved

/-! ## The hibernation -/

section Hibernate

variable {config : Config} {topology : Topology} {id : CellId} {host : Host SimMachine}

theorem same_of_freeze {cells : Cells} {signal : Signal} {outcome : Outcome Unit}
    {machine after : SimMachine} {log : List Notice}
    (h : cells.call id signal machine = ⟨outcome, after, log⟩) :
    after.memory = machine.memory ∧ after.context = machine.context := by
  have hmemory := Barrier.keeps_rendezvous
    (stable_memory (· = machine.memory) (cells.get id).cores signal) cells.barrier
  have hcontext := Barrier.keeps_rendezvous
    (stable_context (· = machine.context) (cells.get id).cores signal) cells.barrier
  exact ⟨hmemory.of_eq rfl h, hcontext.of_eq rfl h⟩

theorem byteAt_of_saveImage (hsound : config.IsSound) {cells : Cells}
    (hlaid : cells.Laid config topology) {count : UInt32} {machine after : SimMachine}
    {log : List Notice} (h : cells.saveImage id machine = ⟨.ok count, after, log⟩)
    {address : UInt64}
    (hinside : (config.cells.get id).store.base.toNat ≤ address.toNat ∧
      address.toNat < (config.cells.get id).store.base.toNat +
        (config.cells.get id).memory.size.toNat) :
    after.memory.byteAt address =
      machine.memory.byteAt ((config.cells.get id).memory.base +
        (address - (config.cells.get id).store.base)) := by
  have hstore := hsound.store_fits id
  have hlarge := hsound.store_large id
  have htarget : (config.cells.get id).store.base.toNat +
      (config.cells.get id).memory.size.toNat < UInt64.size := by omega
  have hsource := hsound.memory_fits id
  unfold Cells.saveImage at h
  rw [hlaid.memory, hlaid.store, hlaid.blockSize] at h
  have hagrees := Image.agrees_of_copy hsound.block_pos htarget hsource (hsound.image_apart id) h
  rw [hagrees address, Physical.byteAt_copy_of_mem htarget hsource hinside]

theorem held_of_hibernate (hsound : config.IsSound) (hlaid : host.cells.Laid config topology)
    (h : (Host.hibernate id host).outcome = .ok ()) :
    Held config topology id host.machine (Host.hibernate id host).state := by
  have hblank := Host.blank_hibernate id host
  have hcases := Host.hibernate_cases id host
  generalize Host.hibernate id host = reply at hcases hblank h ⊢
  cases hcases with
  | refused | freezeHalted | unfrozen | crowded | copyHalted | uncopied => cases h
  | @hibernated blocks frozen copied _ _ running freeze few copy =>
    obtain ⟨hmemory, hcontext⟩ := same_of_freeze freeze
    have hsaved : Saved config id host.machine ⟨copied, host.cells.set id
        { (host.cells.get id).savedOn frozen with state := .hibernated, blocks }⟩ := by
      refine ⟨?_, ?_, ?_⟩
      · have hcount : blocks.toNat = Image.blockCount (host.cells.get id).memory.size
            host.cells.blockSize := Image.toNat_of_copy copy
        have hpos := Image.blockCount_pos hsound.block_pos (hsound.memory_pos id)
        rw [hlaid.memory, hlaid.blockSize] at hcount
        rw [Cells.get_set_self, Cell.hasImage, decide_eq_true_iff, UInt32.lt_iff_toNat_lt, hcount]
        exact hpos
      · rw [Cells.get_set_self, ← hcontext]
        rfl
      · intro address hlow hhigh
        rw [← hmemory]
        exact byteAt_of_saveImage hsound hlaid copy ⟨hlow, hhigh⟩
    refine ⟨hlaid.of_blank_eq hblank, ?_, fun _ => hsaved⟩
    rw [Cells.state, Cells.get_set_self]
    simp

end Hibernate

/-! ## Between -/

section Between

variable {config : Config} {topology : Topology} {id : CellId} {called : SimMachine}
  {host : Host SimMachine}

theorem held_of_hibernate_not_ok (held : Held config topology id called host)
    (h : (Host.hibernate id host).outcome ≠ .ok ()) :
    Held config topology id called (Host.hibernate id host).state := by
  have hblank := Host.blank_hibernate id host
  have hcases := Host.hibernate_cases id host
  generalize Host.hibernate id host = reply at hcases hblank h ⊢
  cases hcases with
  | refused => exact held
  | freezeHalted running => exact held.of_state hblank (.inl running)
  | copyHalted running =>
    exact held.of_state hblank (.inl ((Cells.state_set_self _ _ _).trans running))
  | unfrozen | crowded => exact held.of_state hblank (.inr (Cells.state_moveTo _ _ _))
  | uncopied => exact held.of_state hblank (.inr (Cells.state_set_self _ _ _))
  | hibernated => exact absurd rfl h

theorem held_of_resume (hsound : config.IsSound) (held : Held config topology id called host) :
    Held config topology id called (Host.resume id host).state := by
  have hblank := Host.blank_resume id host
  have hmoved := transfers_resume hsound held.laid id
  have hstore : ∀ address, (config.cells.get id).store.contains address = true →
      (Host.resume id host).state.machine.memory.byteAt address =
        host.machine.memory.byteAt address :=
    hmoved.others (.store id) Config.Holding.noConfusion
  have hcases := Host.resume_cases id host
  generalize Host.resume id host = reply at hcases hblank hstore ⊢
  cases hcases with
  | refused | contended | coreless => exact held
  | copyHalted | thawHalted => exact held.of_eq hblank rfl hstore hsound
  | uncopied | unthawed => exact held.of_state hblank (.inr (Cells.state_moveTo _ _ _))
  | resumed => exact held.of_state hblank (.inl (Cells.state_moveTo _ _ _))

theorem held_of_other (hsound : config.IsSound) (held : Held config topology id called host) :
    Held config topology id called (Host.hibernate id.other host).state ∧
      Held config topology id called (Host.resume id.other host).state := by
  have hcell := Host.get_other_hibernate id.other host
  have hcell' := Host.get_other_resume id.other host
  rw [CellId.other_other] at hcell hcell'
  have hstore := (transfers_hibernate hsound held.laid id.other).others (.store id)
    fun h => CellId.other_ne id (Config.Holding.store.inj h).symm
  have hstore' := (transfers_resume hsound held.laid id.other).others (.store id)
    Config.Holding.noConfusion
  exact ⟨held.of_eq (Host.blank_hibernate _ _) hcell hstore hsound,
    held.of_eq (Host.blank_resume _ _) hcell' hstore' hsound⟩

/-- Nothing but a hibernation of the cell that succeeds, or a write to its store, ends what is held
of it. -/
theorem held_act (hsound : config.IsSound) (held : Held config topology id called host)
    (operation : Host.Operation)
    (hhibernate : operation = .hibernate id → (Host.hibernate id host).outcome ≠ .ok ())
    (hwrite : ∀ address byte, operation = .disturb (.write address byte) →
      (config.cells.get id).store.contains address = false) :
    Held config topology id called (operation.act host).state := by
  cases operation with
  | boot =>
    -- a cell that was started keeps both from being started again
    have hcases := Host.boot_cases host
    show Held config topology id called (Host.boot host).state
    generalize Host.boot host = reply at hcases ⊢
    cases hcases with
    | refused => exact held
    | halted linux windows | unparked linux windows | parked linux windows =>
      have hstarted := held.started
      cases id with
      | linux => exact absurd linux hstarted
      | windows => exact absurd windows hstarted
  | hibernate cell =>
    rcases CellId.eq_or_eq_other cell id with rfl | rfl
    · exact held_of_hibernate_not_ok held (hhibernate rfl)
    · exact (held_of_other hsound held).1
  | resume cell =>
    rcases CellId.eq_or_eq_other cell id with rfl | rfl
    · exact held_of_resume hsound held
    · exact (held_of_other hsound held).2
  | fail cell =>
    have hmachine := Host.machine_markFailed cell host
    rcases CellId.eq_or_eq_other cell id with rfl | rfl
    · exact held.of_state (Host.blank_markFailed _ _) (.inr (Host.state_markFailed _ _))
    · have hcell := Host.get_other_markFailed id.other host
      rw [CellId.other_other] at hcell
      refine held.of_eq (Host.blank_markFailed _ _) hcell ?_ hsound
      exact fun address _ => congrArg (fun machine => machine.memory.byteAt address) hmachine
  | disturb disturbance =>
    refine held.of_eq rfl rfl ?_ hsound
    intro address hinside
    refine Sim.Disturbance.byteAt_apply fun byte hdisturbance => ?_
    rw [hwrite address byte (by simp [hdisturbance])] at hinside
    cases hinside

/-- What a run may not do while the cell is held: hibernate it with success, or write to its
store. -/
structure Spares (config : Config) (id : CellId) (operations : List Host.Operation)
    (host : Host SimMachine) : Prop where
  hibernates : ∀ earlier later, operations = earlier ++ .hibernate id :: later →
    (Host.hibernate id (Host.Operation.run earlier host)).outcome ≠ .ok ()
  writes : ∀ address byte, .disturb (.write address byte) ∈ operations →
    (config.cells.get id).store.contains address = false

theorem held_run (hsound : config.IsSound) (operations : List Host.Operation)
    (held : Held config topology id called host) (hspares : Spares config id operations host) :
    Held config topology id called (Host.Operation.run operations host) := by
  induction operations generalizing host with
  | nil => exact held
  | cons operation rest ih =>
    have hnext := held_act hsound held operation
      (fun h => hspares.hibernates [] rest (by simp [h]))
      (fun address byte h => hspares.writes address byte (by simp [h]))
    rcases Host.Operation.run_cons operation host with hstop | hgo
    · rw [hstop]
      exact hnext
    · rw [hgo]
      refine ih hnext ⟨?_, ?_⟩
      · intro earlier later h
        have hearlier := hspares.hibernates (operation :: earlier) later (by simp [h])
        rw [hgo] at hearlier
        exact hearlier
      · exact fun address byte h => hspares.writes address byte (List.mem_cons_of_mem _ h)

end Between

/-! ## The resumption -/

section Resume

variable {config : Config} {topology : Topology} {id : CellId} {called : SimMachine}
  {host : Host SimMachine}

theorem context_setContexts (cores : List UInt32) (contexts : UInt32 → Context)
    (machine : SimMachine) (core : UInt32) :
    (Host.setContexts (cores.map fun core => ⟨core, contexts core⟩) machine).context core =
      if core ∈ cores then contexts core else machine.context core := by
  induction cores generalizing machine with
  | nil => rfl
  | cons first rest ih =>
    rw [List.map_cons, Host.setContexts, ih]
    by_cases hrest : core ∈ rest
    · rw [if_pos hrest, if_pos (List.mem_cons_of_mem _ hrest)]
    · rw [if_neg hrest]
      show (machine.setContext first (contexts first)).context core = _
      rw [context_setContext]
      by_cases hfirst : core = first
      · rw [if_pos hfirst, hfirst, if_pos (List.mem_cons_self ..)]
      · rw [if_neg hfirst, if_neg fun h => hrest ((List.mem_cons.1 h).resolve_left hfirst)]

theorem memory_setContexts (saved : List SavedContext) (machine : SimMachine) :
    (Host.setContexts saved machine).memory = machine.memory :=
  Host.kept_setContexts (P := fun next : SimMachine => next.memory = machine.memory)
    (fun h => h) saved rfl

theorem byteAt_of_loadImage (hsound : config.IsSound) (hlaid : host.cells.Laid config topology)
    (hsaved : Saved config id called host) {count : UInt32} {after : SimMachine}
    {log : List Notice} (h : host.cells.loadImage id host.machine = ⟨.ok count, after, log⟩)
    {address : UInt64}
    (hinside : (config.cells.get id).memory.base.toNat ≤ address.toNat ∧
      address.toNat < (config.cells.get id).memory.base.toNat +
        (config.cells.get id).memory.size.toNat) :
    after.memory.byteAt address = called.memory.byteAt address := by
  have hstore := hsound.store_fits id
  have hlarge := hsound.store_large id
  have hsource : (config.cells.get id).store.base.toNat +
      (config.cells.get id).memory.size.toNat < UInt64.size := by omega
  have htarget := hsound.memory_fits id
  have hcopied := Physical.toNat_moved _ hsource hinside.1 hinside.2
  unfold Cells.loadImage at h
  rw [hlaid.memory, hlaid.store, hlaid.blockSize] at h
  have hagrees := Image.agrees_of_copy hsound.block_pos htarget hsource
    (hsound.image_apart id).symm h
  have hback : (config.cells.get id).memory.base +
      ((config.cells.get id).store.base + (address - (config.cells.get id).memory.base) -
        (config.cells.get id).store.base) = address := by
    rw [UInt64.add_comm (config.cells.get id).store.base, UInt64.add_sub_cancel, UInt64.add_comm,
      UInt64.sub_add_cancel]
  rw [hagrees address, Physical.byteAt_copy_of_mem htarget hsource hinside,
    hsaved.bytes _ (by omega) (by omega), hback]

theorem restored_of_resume (hsound : config.IsSound)
    (held : Held config topology id called host)
    (h : (Host.resume id host).outcome = .ok ()) :
    (∀ address, (config.cells.get id).memory.contains address = true →
      (Host.resume id host).state.machine.memory.byteAt address =
        called.memory.byteAt address) ∧
    ∀ core, (topology.ranges.get id).contains core = true →
      (Host.resume id host).state.machine.context core = called.context core := by
  have hcases := Host.resume_cases id host
  generalize Host.resume id host = reply at hcases h ⊢
  cases hcases with
  | refused | contended | coreless | copyHalted | uncopied | thawHalted | unthawed => cases h
  | resumed ready load thaw =>
    obtain ⟨hmemory, hcontext⟩ := same_of_freeze thaw
    have hsaved := held.saved ready.hibernated
    cases load with
    | start none =>
      have himage := hsaved.image
      rw [none] at himage
      cases himage
    | image image copy =>
      constructor
      · intro address hinside
        rw [Extent.contains_iff, Extent.toNat_stop] at hinside
        show Physical.byteAt _ address = _
        rw [hmemory, memory_setContexts]
        exact byteAt_of_loadImage hsound held.laid hsaved copy (by omega)
      · intro core hcore
        have hmember := (CoreRange.mem_toList _ _).2 hcore
        rw [← held.laid.cores] at hmember
        show SimMachine.context _ core = _
        rw [hcontext, hsaved.contexts, context_setContexts, if_pos hmember]

end Resume

/-- From the start of its machine on, whatever is done before: once the cell `id` is hibernated, and
whatever else is done before it is resumed, the resumption brings back every byte of its memory and
the registers of every one of its cores as they were when it was hibernated. -/
theorem resume_restores {config : Config} (hvalid : config.validate = .ok ())
    (topology : Topology) (machine : SimMachine) (before between : List Host.Operation)
    (id : CellId) :
    let called := Host.Operation.run before ⟨machine, .fresh config topology⟩
    let hibernated := Host.hibernate id called
    let resumed := Host.resume id (Host.Operation.run between hibernated.state)
    hibernated.outcome = .ok () → Spares config id between hibernated.state →
      resumed.outcome = .ok () →
      (∀ address, (config.cells.get id).memory.contains address = true →
        resumed.state.machine.memory.byteAt address = called.machine.memory.byteAt address) ∧
      ∀ core, (topology.ranges.get id).contains core = true →
        resumed.state.machine.context core = called.machine.context core := by
  intro called hibernated resumed hhibernated hspares hresumed
  have hsound := Config.isSound_of_validate hvalid
  have hlaid := Host.Operation.laid_of_run config topology machine before
  have held := held_of_hibernate hsound hlaid hhibernated
  exact restored_of_resume hsound (held_run hsound between held hspares) hresumed

/-- The memory of linux is written while it is hibernated, and windows runs in between. -/
theorem resume_restores_compact :
    (Host.hibernate .linux
      (Host.Operation.run [.boot, .disturb (.write (64 * mib) 7)] Host.compact)).outcome = .ok () ∧
    (Host.resume .linux (Host.Operation.run
      [.resume .windows, .disturb (.write (64 * mib) 9), .hibernate .windows]
      (Host.hibernate .linux (Host.Operation.run [.boot, .disturb (.write (64 * mib) 7)]
        Host.compact)).state)).state.machine.memory.byteAt (64 * mib) =
    (Host.Operation.run [.boot, .disturb (.write (64 * mib) 7)]
      Host.compact).machine.memory.byteAt (64 * mib) := by
  have hspares : Spares .compact .linux
      [.resume .windows, .disturb (.write (64 * mib) 9), .hibernate .windows]
      (Host.hibernate .linux (Host.Operation.run [.boot, .disturb (.write (64 * mib) 7)]
        Host.compact)).state := by
    constructor
    · intro earlier later h
      have hmem : Host.Operation.hibernate .linux ∈ earlier ++ .hibernate .linux :: later :=
        List.mem_append_right _ (List.mem_cons_self ..)
      rw [← h] at hmem
      exact absurd hmem (by decide)
    · intro address byte h
      have hwrite : address = 64 * mib ∧ byte = 9 := by simpa using h
      rw [hwrite.1]
      decide
  exact ⟨by decide +kernel, (resume_restores validate_compact .halved (.ofCores 4) _ _ .linux
    (by decide +kernel) hspares (by decide +kernel)).1 (64 * mib) (by decide)⟩

end CellVisor
