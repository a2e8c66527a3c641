import CellVisor.Proofs.Noninterference.Cells
import CellVisor.Proofs.Operation

/-!
# CellVisor.Proofs.Noninterference.Runs

What is private to one cell never influences the other: runs of the same operations on two hosts
that differ only in that go the same way, and stay alike in everything else.

* `SharedHost.Agree`: the hosts agree on everything but the bytes of the memory and the store of one
  cell, the registers of its cores and its saved contexts.
* `coupled_switch`, `coupled_act`: every operation goes the same way on both.
* `noninterference`: so does every run, and the hosts still agree after it.
-/

namespace CellVisor

open SimMachine

/-! ## Agreement -/

/-- Two pairs of cells with everything equal but the saved contexts of the cell `id`. -/
structure Cells.Agree (id : CellId) (first second : Cells) : Prop where
  barrier : first.barrier = second.barrier
  blockSize : first.blockSize = second.blockSize
  unsaved : ∀ cell, (first.get cell).unsaved = (second.get cell).unsaved
  saved : ∀ cell, cell ≠ id → (first.get cell).saved = (second.get cell).saved

namespace SharedHost

/-- Two hosts that agree on everything but what is private to the cell `id`. -/
structure Agree (config : Config) (topology : Topology) (id : CellId)
    (first second : SharedHost SimMachine) : Prop where
  machine : SimMachine.Agree config topology id first.host.machine second.host.machine
  cells : first.host.cells.Agree id second.host.cells
  coordinator : first.coordinator = second.coordinator

/-- The same of hosts with the cells that `config` and `topology` lay out, of which each saves
contexts of its own cores only. -/
structure Like (config : Config) (topology : Topology) (id : CellId)
    (first second : SharedHost SimMachine) : Prop where
  host : Host.Like config topology id first.host second.host
  coordinator : first.coordinator = second.coordinator

section Like

variable {config : Config} {topology : Topology} {id : CellId}
  {first second : SharedHost SimMachine}

theorem Like.agree (h : Like config topology id first second) :
    Agree config topology id first second where
  machine := h.host.machine
  cells := ⟨h.host.barrier, h.host.blockSize, fun cell => (h.host.cells cell).unsaved,
    fun cell => (h.host.cells cell).saved⟩
  coordinator := h.coordinator

/-- Where each of two hosts is as it should be, their agreement is all that there is to show. -/
theorem Agree.like (h : Agree config topology id first second)
    (hfirst : Like config topology id first first)
    (hsecond : Like config topology id second second) : Like config topology id first second where
  host := {
    machine := h.machine
    barrier := h.cells.barrier
    blockSize := h.cells.blockSize
    cells := fun cell => {
      laid := (hfirst.host.cells cell).laid
      unsaved := h.cells.unsaved cell
      saved := h.cells.saved cell
      owned := fun hcell context hcontext => hcontext.elim
        (fun hmem => (hfirst.host.cells cell).owned hcell context (.inl hmem))
        fun hmem => (hsecond.host.cells cell).owned hcell context (.inl hmem) } }
  coordinator := h.coordinator

theorem like_fresh (config : Config) (topology : Topology) (id : CellId) (machine : SimMachine)
    (coordinator : Coordinator) :
    Like config topology id ⟨⟨machine, .fresh config topology⟩, coordinator⟩
      ⟨⟨machine, .fresh config topology⟩, coordinator⟩ where
  host := {
    machine := agree_refl machine
    barrier := rfl
    blockSize := rfl
    cells := fun cell => {
      laid := (Cells.laid_fresh config topology).get_blank cell
      unsaved := rfl
      saved := fun _ => rfl
      owned := fun _ context hcontext => by cases cell <;> simp [Cells.fresh, Cells.get, PerCell.of,
        PerCell.get, Cell.fresh] at hcontext } }
  coordinator := rfl

/-! ## Operations -/

theorem coupled_onHost {α : Type} {V : α → α → Prop} {action : Action (Host SimMachine) α}
    (h : Action.Coupled (Host.Like config topology id) V action action) :
    Action.Coupled (Like config topology id) V (onHost action) (onHost action) :=
  h.zoom (fun _ _ h => h.host) fun _ _ _ _ h hhost => ⟨hhost, h.coordinator⟩

/-- What is published says nothing private. -/
theorem snapshot_eq (h : Host.Like config topology id first.host second.host)
    (coordinator : Coordinator) :
    coordinator.snapshot first.host.cells = coordinator.snapshot second.host.cells := by
  have hstatus : ∀ cell, CellStatus.ofCell (first.host.cells.get cell) =
      .ofCell (second.host.cells.get cell) := by
    intro cell
    have hcell := h.cells cell
    unfold CellStatus.ofCell
    rw [hcell.state, hcell.cores, hcell.symm.cores, hcell.blocks]
  unfold Coordinator.snapshot Snapshot.take
  congr 1
  exact PerCell.ext_get fun cell => by rw [PerCell.get_of, PerCell.get_of, hstatus]

theorem coupled_publish :
    Action.Coupled (Like config topology id) Eq (publish : Action (SharedHost SimMachine) Unit)
      publish := by
  refine Action.coupled_update fun first second h => ⟨h.host, ?_⟩
  show first.coordinator.publish first.host.cells = second.coordinator.publish second.host.cells
  unfold Coordinator.publish
  rw [h.coordinator, snapshot_eq h.host]

theorem coupled_activate (next : CellId) (now switches : UInt64) :
    Action.Coupled (Like config topology id) Eq
      (activate next now switches : Action (SharedHost SimMachine) Unit)
      (activate next now switches) :=
  Action.coupled_update fun _ _ h => ⟨h.host, congrArg
    (fun coordinator => { coordinator with active := next, switches, lastSwitch := some now })
    h.coordinator⟩

theorem coupled_complete (next : CellId) (switches : UInt64) :
    Action.Coupled (Like config topology id) Eq
      (complete next switches : Action (SharedHost SimMachine) CellId)
      (complete next switches) := by
  have hreading : Action.Coupled (SimMachine.Agree config topology id) Eq
      (Action.ofReading Machine.now) (Action.ofReading Machine.now) :=
    Action.coupled_ofReading fun _ _ h => h.timed
  refine (Action.coupled_word _).bind_eq fun switches => ?_
  refine (coupled_onHost (Host.coupled_onMachine hreading)).bind_eq fun now => ?_
  exact (coupled_activate next now switches).bind_eq fun _ => coupled_publish.bind_eq fun _ =>
    (Action.coupled_note _).bind_eq fun _ => Action.coupled_pure rfl

theorem agree_disturb (disturbance : Sim.Disturbance) {machine machine' : SimMachine}
    (h : SimMachine.Agree config topology id machine machine') :
    SimMachine.Agree config topology id (disturbance.apply machine)
      (disturbance.apply machine') := by
  cases disturbance with
  | respond core responsive =>
    exact h.setCore core (congrArg (fun core => { core with responsive }) (h.cores core))
      (h.contexts core)
  | delay core polls =>
    exact h.setCore core (congrArg (fun core => { core with delay := polls }) (h.cores core))
      (h.contexts core)
  | failCopies count => exact h.counted (some count)
  | live core context => exact h.setContext_same core context
  | write written byte =>
    refine h.remembered fun address hpublic => ?_
    rw [Physical.byteAt_write, Physical.byteAt_write, h.bytes address hpublic]

variable (hsound : config.IsSound) (hsplit : topology.IsSplit)

include hsound hsplit

theorem coupled_switch :
    Action.Coupled (Like config topology id) Eq (switch : Action (SharedHost SimMachine) CellId)
      switch := by
  refine Action.coupled_get.bind fun first second h => ?_
  dsimp only
  rw [h.coordinator, h.host.state, h.host.state, (h.host.cells _).cores,
    (h.host.cells _).symm.cores]
  refine Action.coupled_ite Iff.rfl ?_ ?_
  · exact (Action.coupled_note _).bind_eq fun _ => Action.coupled_fail_bind _
  refine Action.coupled_ite Iff.rfl (Action.coupled_fail_bind _) ?_
  refine (Action.coupled_note _).bind_eq fun _ => ?_
  refine (coupled_onHost (Host.coupled_hibernate hsound hsplit _)).attempt.bind_eq fun result => ?_
  refine coupled_publish.bind_eq fun _ => ?_
  cases result with
  | error error => exact (Action.coupled_note _).bind_eq fun _ => Action.coupled_fail _
  | ok =>
    refine (coupled_onHost (Host.coupled_resume hsound _)).attempt.bind_eq fun result => ?_
    cases result with
    | error error =>
      exact coupled_publish.bind_eq fun _ => (Action.coupled_note _).bind_eq fun _ =>
        Action.coupled_fail _
    | ok => exact coupled_complete _ _

theorem coupled_operation (operation : Host.Operation) :
    Action.Coupled (Host.Like config topology id) Eq operation.act operation.act := by
  cases operation with
  | boot => exact Host.coupled_boot
  | hibernate cell => exact Host.coupled_hibernate hsound hsplit cell
  | resume cell => exact Host.coupled_resume hsound cell
  | fail cell => exact Host.coupled_markFailed cell
  | disturb disturbance =>
    exact Host.coupled_onMachine (Action.coupled_update fun _ _ h => agree_disturb disturbance h)

theorem coupled_act (operation : Operation) :
    Action.Coupled (Like config topology id) Eq operation.act operation.act := by
  cases operation with
  | cells operation => exact coupled_onHost (coupled_operation hsound hsplit operation)
  | switch => exact (coupled_switch hsound hsplit).discard
  | publish => exact coupled_publish

theorem like_run (operations : List Operation) (h : Like config topology id first second) :
    Like config topology id (Operation.run operations first) (Operation.run operations second) :=
  (Action.Coupled.attemptEach (coupled_act hsound hsplit) operations first second h).states

end Like

/-! ## Runs -/

section Runs

variable {config : Config} {topology : Topology} {id : CellId} {machine machine' : SimMachine}
  {coordinator coordinator' : Coordinator}

/-- The bytes of the other cell are public. -/
theorem public_of_other (hsound : config.IsSound) (holding : Config.Holding)
    (howner : holding.owner? = some id.other) {address : UInt64}
    (haddress : (config.extentOf holding).contains address = true) : config.Public id address := by
  refine Config.public_iff.2 fun part hpart => Bool.eq_false_iff.2 fun hinside => ?_
  rw [hsound.eq_of_contains hinside haddress, howner] at hpart
  exact absurd (Option.some.inj hpart) (CellId.other_ne id)

/-- What is private to the cell `id` never influences anything else. Two hosts, however they came
about, that agree on all but the bytes of its memory and its store, the registers of its cores and
its saved contexts, go the same way under the same operations:

* the run gives the same outcome and the same notices, and so does every operation after it;
* it leaves the same events, the same time, the same states of the cells and the same coordinator,
  with all that was published;
* the hosts still agree on everything that is not private to the cell;
* in particular the other cell has the same record, the same bytes and the same registers. -/
theorem noninterference (hvalid : config.validate = .ok ()) {σ : Type} {state : σ} {leaves : Leaves}
    (hprobe : (Topology.probe leaves config.linuxCores state).outcome = .ok topology)
    (earlier earlier' : List Operation)
    (h : Agree config topology id
      (Operation.run earlier ⟨⟨machine, .fresh config topology⟩, coordinator⟩)
      (Operation.run earlier' ⟨⟨machine', .fresh config topology⟩, coordinator'⟩))
    (operations : List Operation) :
    let reply := Action.attemptEach Operation.act operations
      (Operation.run earlier ⟨⟨machine, .fresh config topology⟩, coordinator⟩)
    let reply' := Action.attemptEach Operation.act operations
      (Operation.run earlier' ⟨⟨machine', .fresh config topology⟩, coordinator'⟩)
    reply.outcome = reply'.outcome ∧ reply.log = reply'.log ∧
      (∀ operation : Operation,
        (operation.act reply.state).outcome = (operation.act reply'.state).outcome ∧
          (operation.act reply.state).log = (operation.act reply'.state).log) ∧
      (switch reply.state).outcome = (switch reply'.state).outcome ∧
      reply.state.host.machine.events = reply'.state.host.machine.events ∧
      reply.state.host.machine.clock = reply'.state.host.machine.clock ∧
      (∀ cell, reply.state.host.cells.state cell = reply'.state.host.cells.state cell) ∧
      reply.state.coordinator = reply'.state.coordinator ∧
      Agree config topology id reply.state reply'.state ∧
      reply.state.host.cells.get id.other = reply'.state.host.cells.get id.other ∧
      (∀ address, (config.cells.get id.other).memory.contains address = true ∨
          (config.cells.get id.other).store.contains address = true →
        reply.state.host.machine.memory.byteAt address =
          reply'.state.host.machine.memory.byteAt address) ∧
      ∀ core, (topology.ranges.get id.other).contains core = true →
        reply.state.host.machine.context core = reply'.state.host.machine.context core := by
  have hsound := Config.isSound_of_validate hvalid
  have hsplit := Topology.isSplit_of_probe hprobe
  have hstart : Like config topology id
      (Operation.run earlier ⟨⟨machine, .fresh config topology⟩, coordinator⟩)
      (Operation.run earlier' ⟨⟨machine', .fresh config topology⟩, coordinator'⟩) :=
    h.like (like_run hsound hsplit earlier (like_fresh config topology id machine coordinator))
      (like_run hsound hsplit earlier' (like_fresh config topology id machine' coordinator'))
  have hrun := Action.Coupled.attemptEach (coupled_act hsound hsplit) operations _ _ hstart
  have hcalls := fun operation => coupled_act hsound hsplit operation _ _ hrun.states
  have hswitch := coupled_switch hsound hsplit _ _ hrun.states
  have hmachine := hrun.states.host.machine
  intro reply reply'
  refine ⟨hrun.outcome, hrun.log,
    fun operation => ⟨(hcalls operation).outcome, (hcalls operation).log⟩, hswitch.outcome,
    hmachine.events, hmachine.clock, hrun.states.host.state, hrun.states.coordinator,
    hrun.states.agree, ?_, fun address haddress => ?_, fun core hcore => ?_⟩
  · exact (hrun.states.host.cells id.other).eq_of_ne (CellId.other_ne id)
  · refine hmachine.bytes address ?_
    rcases haddress with hmemory | hstore
    · exact public_of_other hsound (.memory id.other) rfl hmemory
    · exact public_of_other hsound (.store id.other) rfl hstore
  · refine hmachine.contexts core ?_
    have hdisjoint := hsplit.disjoint id.other core hcore
    rwa [CellId.other_other] at hdisjoint

/-- Linux starts with another byte in its memory and another program counter on its first core, and
the switch to windows goes the same way. -/
theorem noninterference_compact :
    let other := Operation.run [.cells (.disturb (.write (64 * mib) 7)),
      .cells (.disturb (.live 0 (.startingAt mib)))] .compact
    other.host.machine.memory.byteAt (64 * mib) ≠
        compact.host.machine.memory.byteAt (64 * mib) ∧
      (switch (Operation.run [.cells .boot] .compact)).outcome = .ok .windows ∧
      (switch (Operation.run [.cells .boot] .compact)).outcome =
        (switch (Operation.run [.cells .boot] other)).outcome := by
  intro other
  have hprobe : (Topology.probe (SimMachine.ofCores 4).leaf Config.compact.linuxCores ()).outcome =
      .ok .halved := by decide
  have hbytes : ∀ address, Config.compact.Public .linux address →
      (SimMachine.ofCores 4).memory.byteAt address =
        ((SimMachine.ofCores 4).writeByte (64 * mib) 7).memory.byteAt address := by
    intro address hpublic
    refine ((Physical.byteAt_write _ (64 * mib) address 7).trans (if_neg ?_)).symm
    rintro rfl
    exact absurd hpublic.1 (by decide)
  have hwritten : SimMachine.Agree .compact .halved .linux (.ofCores 4)
      ((SimMachine.ofCores 4).writeByte (64 * mib) 7) :=
    (agree_refl (.ofCores 4)).remembered hbytes
  have h : Agree .compact .halved .linux compact other := {
    machine := (hwritten.symm.setContext_left rfl (.startingAt mib)).symm
    cells := ⟨rfl, rfl, fun _ => rfl, fun _ _ => rfl⟩
    coordinator := rfl }
  have hruns := noninterference validate_compact hprobe [] [.cells (.disturb (.write (64 * mib) 7)),
    .cells (.disturb (.live 0 (.startingAt mib)))] h [.cells .boot]
  exact ⟨by decide +kernel, by decide +kernel, hruns.2.2.2.1⟩

end Runs
end SharedHost
end CellVisor
