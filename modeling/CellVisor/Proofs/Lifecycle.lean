import CellVisor.Proofs.Cell.Changes
import CellVisor.Proofs.Overflow
import CellVisor.Proofs.RoundTrip

/-!
# CellVisor.Proofs.Lifecycle

What holds of the two cells at every point of their lifecycle, whatever machine each operation is
made on.

* `Cells.Leads`: cells that come of others by operations. `leads_run`: those of a run do.
* `Cell.Lawful`: what is saved of a cell is all there is. `Cell.Changed.lawful`: no operation leaves
  a cell half saved. `Cell.Complete`: a context of every core, in ascending order.
* `Cells.Sound`: the invariant of both cells. `sound_act`: an operation keeps it; `sound_of_leads`:
  so it holds of all cells that come of fresh ones.
* `saved_of_resume`: a cell that is loaded from its image gets back the context of every core.
* `lifecycle_invariant`: all of it.
-/

namespace CellVisor

open SimMachine

/-! ## Cells that come of others -/

/-- `after` comes of `before` by operations, each of them on a machine of its own. -/
inductive Cells.Leads (before : Cells) : Cells → Prop where
  | refl : Leads before before
  | step {host : Host SimMachine} (h : Leads before host.cells) (operation : Host.Operation) :
      Leads before (operation.act host).state.cells

theorem Cells.Leads.kept {P : Cells → Prop} {before after : Cells} (h : before.Leads after)
    (keeps : ∀ operation : Host.Operation, Action.Keeps (fun host => P host.cells) operation.act)
    (start : P before) : P after := by
  induction h with
  | refl => exact start
  | step _ operation ih => exact keeps operation _ ih

/-- A run leads from the cells before it to those after it. -/
theorem Host.Operation.leads_run (operations : List Host.Operation) (host : Host SimMachine) :
    host.cells.Leads (run operations host).cells :=
  Action.keeps_attemptEach (P := fun after => host.cells.Leads after.cells)
    (fun operation _ h => h.step operation) operations host .refl

/-! ## What is saved of a cell -/

namespace Cell

/-- The contexts of a cell are saved of all its cores or of none, and not of none where it has an
image. -/
structure Lawful (cell : Cell) : Prop where
  contexts : cell.saved = [] ∨ ∃ contexts, cell.saved = (cell.withContexts contexts).saved
  present : cell.hasImage = true → cell.saved ≠ []
  owned : cell.state = .running → cell.cores.isEmpty = false

theorem saved_withContexts_ne_nil {cell : Cell} (owned : cell.cores.isEmpty = false)
    (contexts : UInt32 → Context) : (cell.withContexts contexts).saved ≠ [] := by
  intro hnone
  have hlist : cell.cores.toList = [] := List.map_eq_nil_iff.1 hnone
  have hsize : cell.cores.size = 0 := UInt32.toNat.inj (by
    rw [← CoreRange.length_toList, hlist]
    rfl)
  rw [CoreRange.isEmpty, hsize] at owned
  cases owned

section Changed

variable {blockSize : UInt64} {id : CellId} {cell after : Cell}
  {moves : List (CellState × CellState)}

/-- No operation leaves a cell half saved, as long as a cell that runs has cores. -/
theorem Changed.lawful (hchanged : Changed blockSize id cell moves after) (h : cell.Lawful)
    (linux : id = .linux → cell.cores.isEmpty = false) : after.Lawful := by
  cases hchanged with
  | kept => exact h
  | failed | parked => exact ⟨h.contexts, h.present, nofun⟩
  | started _ hid => exact ⟨h.contexts, h.present, fun _ => linux hid⟩
  | resumed _ owned => exact ⟨h.contexts, h.present, fun _ => owned⟩
  | @taken contexts running =>
    have hsaved := saved_withContexts_ne_nil (h.owned running) contexts
    exact ⟨.inr ⟨contexts, rfl⟩, fun _ => hsaved, h.owned⟩
  | @uncopied contexts running | @hibernated contexts _ running =>
    have hsaved := saved_withContexts_ne_nil (h.owned running) contexts
    exact ⟨.inr ⟨contexts, rfl⟩, fun _ => hsaved, nofun⟩

/-- An operation changes the state of a cell once at most, as the lifecycle allows. -/
theorem Changed.move (hchanged : Changed blockSize id cell moves after) :
    moves = [] ∧ after.state = cell.state ∨
      cell.state.canEnter after.state = true ∧ moves = [(cell.state, after.state)] := by
  cases hchanged with
  | kept | taken => exact .inl ⟨rfl, rfl⟩
  | failed alive =>
    refine .inr ⟨?_, rfl⟩
    show cell.state.canEnter .error = true
    cases hstate : cell.state with
    | error => exact absurd hstate alive
    | initializing | running | hibernated => rfl
  | started h | parked h | resumed h | uncopied h | hibernated h =>
    rw [h]
    exact .inr ⟨rfl, rfl⟩

/-- The states from which there is no way on, and to which there is none back. -/
theorem Changed.ends (hchanged : Changed blockSize id cell moves after) :
    (cell.state = .error → after.state = .error) ∧
      (cell.state ≠ .initializing → after.state ≠ .initializing) := by
  have hmove := hchanged.move
  revert hmove
  generalize cell.state = source
  generalize after.state = target
  cases source <;> cases target <;> simp [CellState.canEnter]

end Changed

theorem lawful_fresh (id : CellId) (cores : CoreRange) (layout : CellLayout) :
    (Cell.fresh id cores layout).Lawful where
  contexts := .inl rfl
  present := nofun
  owned := nofun

/-- There is a context of every core of the cell, in ascending order. -/
def Complete (cell : Cell) : Prop :=
  (cell.saved.map SavedContext.core).Pairwise (· < ·) ∧
    ∀ core, core ∈ cell.saved.map SavedContext.core ↔ cell.cores.contains core = true

theorem Lawful.complete {cell : Cell} (h : cell.Lawful) : cell.saved = [] ∨ cell.Complete := by
  refine h.contexts.imp_right fun ⟨contexts, hsaved⟩ => ?_
  have hcores : cell.saved.map SavedContext.core = cell.cores.toList := by
    rw [hsaved, withContexts, List.map_map]
    exact List.map_id _
  rw [Complete, hcores]
  exact ⟨cell.cores.pairwise_toList, cell.cores.mem_toList⟩

theorem find?_contexts {cores : List UInt32} {core : UInt32} (h : core ∈ cores)
    (contexts : UInt32 → Context) :
    (cores.map fun core => (⟨core, contexts core⟩ : SavedContext)).find?
      (fun saved => saved.core = core) = some ⟨core, contexts core⟩ := by
  induction cores with
  | nil => cases h
  | cons first rest ih =>
    rw [List.map_cons, List.find?_cons]
    by_cases hfirst : first = core
    · subst hfirst
      simp
    · have hrest : core ∈ rest := (List.mem_cons.1 h).resolve_left (Ne.symm hfirst)
      simp only [hfirst, decide_false]
      exact ih hrest

end Cell

/-- However a cell goes on, once it is out of order it stays so, and it does not get back to its
start. -/
theorem Cells.Leads.ends {before after : Cells} (h : before.Leads after) (id : CellId) :
    (before.state id = .error → after.state id = .error) ∧
      (before.state id ≠ .initializing → after.state id ≠ .initializing) := by
  induction h with
  | refl => exact ⟨fun h => h, fun h => h⟩
  | @step host _ operation ih =>
    have hends := (operation.changed_act host id).ends
    exact ⟨fun h => hends.1 (ih.1 h), fun h => hends.2 (ih.2 h)⟩

/-! ## Both cells -/

section Sound

variable {config : Config} {topology : Topology}

/-- The invariant of both cells. -/
structure Cells.Sound (config : Config) (topology : Topology) (cells : Cells) : Prop where
  laid : cells.Laid config topology
  apart : ¬ BothRun cells.states
  imaged : cells.Imaged
  lawful : ∀ id, (cells.get id).Lawful

theorem sound_fresh (config : Config) (topology : Topology) :
    (Cells.fresh config topology).Sound config topology where
  laid := Cells.laid_fresh config topology
  apart := by
    rintro ⟨hlinux, -⟩
    cases hlinux
  imaged := imaged_fresh config topology
  lawful := by
    intro id
    rw [Cells.fresh, Cells.get, PerCell.get_of]
    exact Cell.lawful_fresh ..

/-- No operation makes a cell run beside the other. -/
theorem apart_act (operation : Host.Operation) :
    Action.Keeps (fun host => ¬ BothRun host.cells.states) operation.act := by
  intro host h
  cases operation with
  | boot =>
    show ¬ BothRun (Host.boot host).state.cells.states
    have hcases := Host.boot_cases host
    generalize Host.boot host = reply at hcases ⊢
    cases hcases with
    | refused => exact h
    | halted linux windows =>
      rintro ⟨-, hruns⟩
      have hruns : host.cells.state .windows = .running := hruns
      rw [windows] at hruns
      cases hruns
    | unparked | parked =>
      rw [states_moveTo]
      exact not_bothRun_set (by decide)
  | hibernate id => exact (tracked_hibernate id h).finish
  | resume id => exact (tracked_resume id h).finish
  | fail id =>
    show ¬ BothRun (Host.markFailed id host).state.cells.states
    by_cases hstate : host.cells.state id = .error
    · rw [Host.markFailed_of_eq hstate]
      exact h
    · rw [Host.markFailed_of_ne hstate, states_moveTo]
      exact not_bothRun_set (by decide)
  | disturb => exact h

theorem sound_act (linux : (topology.ranges.get .linux).isEmpty = false)
    (operation : Host.Operation) :
    Action.Keeps (fun host => host.cells.Sound config topology) operation.act := by
  intro host h
  refine ⟨Host.Operation.keeps_laid config topology operation host h.laid,
    apart_act operation host h.apart, imaged_act operation host h.imaged, fun id => ?_⟩
  refine (operation.changed_act host id).lawful (h.lawful id) ?_
  -- linux is the only cell that runs without having been resumed
  rintro rfl
  rw [h.laid.cores]
  exact linux

theorem sound_of_leads {cells : Cells} (linux : (topology.ranges.get .linux).isEmpty = false)
    (leads : (Cells.fresh config topology).Leads cells) : cells.Sound config topology :=
  leads.kept (P := Cells.Sound config topology) (sound_act linux) (sound_fresh config topology)

/-- A copy of the store of a cell that has an image does not halt. -/
theorem Cells.Sound.loadImage_ne_fault {cells : Cells} (h : cells.Sound config topology)
    (hsound : config.IsSound) {id : CellId} (image : (cells.get id).hasImage = true)
    {machine after : SimMachine} {fault : Fault} {log : List Notice}
    (copy : cells.loadImage id machine = ⟨.fault fault, after, log⟩) : False := by
  have hfew := few_of_imaged h.laid h.imaged image
  rcases (ends_of_loadImage hsound hfew h.laid copy).2 with hended | ⟨_, hended⟩ <;> cases hended

/-- A core has the context that was saved of it, once its cell is loaded from an image and
thawed. -/
theorem context_of_thaw {cells : Cells} {id : CellId} {contexts : UInt32 → Context} {core : UInt32}
    (image : (cells.get id).hasImage = true)
    (hsaved : (cells.get id).saved = ((cells.get id).withContexts contexts).saved)
    (hcore : core ∈ (cells.get id).cores.toList) {machine loaded thawed : SimMachine}
    {outcome : Outcome Unit} {log thawLog : List Notice}
    (load : Host.Loaded cells id machine loaded log)
    (thaw : cells.call id .thaw loaded = ⟨outcome, thawed, thawLog⟩) :
    thawed.context core = contexts core := by
  rw [(same_of_freeze thaw).2]
  cases load with
  | start none =>
    rw [image] at none
    cases none
  | image => rw [hsaved, Cell.withContexts, context_setContexts, if_pos hcore]

/-- A resumption that loads an image gives every core of the cell the context that is saved of
it. -/
theorem saved_of_resume {host : Host SimMachine} {id : CellId}
    (h : host.cells.Sound config topology) (hsound : config.IsSound)
    (ready : Host.Ready id host.cells) (image : (host.cells.get id).hasImage = true)
    (hcopied : (Host.resume id host).outcome ≠ .error .copyFailed) {core : UInt32}
    (hcore : (host.cells.get id).cores.contains core = true) :
    (host.cells.get id).savedContext? core =
      some ((Host.resume id host).state.machine.context core) := by
  have hlawful := h.lawful id
  obtain ⟨contexts, hsaved⟩ := hlawful.contexts.resolve_left (hlawful.present image)
  have hmember := (CoreRange.mem_toList ..).2 hcore
  have hcontext : (Host.resume id host).state.machine.context core = contexts core := by
    have hcases := Host.resume_cases id host
    generalize Host.resume id host = reply at hcases hcopied ⊢
    cases hcases with
    | refused awake => exact absurd ready.hibernated awake
    | contended _ running => exact absurd running ready.alone
    | coreless _ _ empty =>
      rw [ready.owned] at empty
      cases empty
    | copyHalted _ _ copy => exact (h.loadImage_ne_fault hsound image copy).elim
    | uncopied _ _ copy =>
      rw [Image.eq_copyFailed_of_copy copy] at hcopied
      exact absurd rfl hcopied
    | thawHalted _ load thaw | unthawed _ load thaw | resumed _ load thaw =>
      exact context_of_thaw image hsaved hmember load thaw
  rw [hcontext, Cell.savedContext?, hsaved, Cell.withContexts, Cell.find?_contexts hmember,
    Option.map_some]

/-- What holds of a host in whatever came of fresh cells, for the operations that are next. -/
structure Host.Orderly (config : Config) (topology : Topology) (host : Host SimMachine) :
    Prop where
  apart : ¬ (host.cells.state .linux = .running ∧ host.cells.state .windows = .running)
  /-- An operation changes the state of a cell once at most, as the lifecycle allows. -/
  moves : ∀ (operation : Host.Operation) (id : CellId),
    Notice.moves id (operation.act host).log = [] ∧
        (operation.act host).state.cells.state id = host.cells.state id ∨
      (host.cells.state id).canEnter ((operation.act host).state.cells.state id) = true ∧
        Notice.moves id (operation.act host).log =
          [(host.cells.state id, (operation.act host).state.cells.state id)]
  ends : ∀ later, host.cells.Leads later → ∀ id,
    (host.cells.state id = .error → later.state id = .error) ∧
      (host.cells.state id ≠ .initializing → later.state id ≠ .initializing)
  counted : ∀ id, (host.cells.get id).blocks = 0 ∨
    (host.cells.get id).blocks.toNat =
      ((host.cells.get id).memory.size.toNat + config.blockSize.toNat - 1) /
        config.blockSize.toNat
  contexts : ∀ id, (host.cells.get id).saved = [] ∨ (host.cells.get id).Complete
  present : ∀ id, 0 < (host.cells.get id).blocks →
    (host.cells.get id).saved ≠ [] ∧ (host.cells.get id).Complete
  /-- A resumption that is not refused, and whose copy does not fail, gives back every context. -/
  restored : ∀ id, Host.Ready id host.cells → 0 < (host.cells.get id).blocks →
    (Host.resume id host).outcome ≠ .error .copyFailed →
      ∀ core, (host.cells.get id).cores.contains core = true →
        (host.cells.get id).savedContext? core =
          some ((Host.resume id host).state.machine.context core)
  fixed : ∀ id, (host.cells.get id).id = id ∧
    (host.cells.get id).cores = topology.ranges.get id ∧
    (host.cells.get id).memory = (config.cells.get id).memory ∧
    (host.cells.get id).store = (config.cells.get id).store

end Sound

/-- Whatever comes of the fresh cells of an accepted configuration is orderly, whatever the machines
on which it comes about. -/
theorem lifecycle_invariant {σ : Type} {state : σ} {leaves : Leaves} {config : Config}
    {topology : Topology} {host : Host SimMachine} (hvalid : config.validate = .ok ())
    (hprobe : (Topology.probe leaves config.linuxCores state).outcome = .ok topology)
    (leads : (Cells.fresh config topology).Leads host.cells) : host.Orderly config topology := by
  have hsound := Config.isSound_of_validate hvalid
  have hcells := sound_of_leads (Topology.linux_owned_of_probe hprobe) leads
  have himage : ∀ {id}, 0 < (host.cells.get id).blocks → (host.cells.get id).hasImage = true :=
    fun hblocks => decide_eq_true hblocks
  exact
    { apart := fun hboth => hcells.apart hboth
      moves := fun operation id => (operation.changed_act host id).move
      ends := fun later hlater id => hlater.ends id
      counted := fun id => by
        by_cases hblocks : 0 < (host.cells.get id).blocks
        · rw [hcells.imaged id (himage hblocks), hcells.laid.blockSize,
            Image.blockCount_eq _ hsound.block_pos]
          exact .inr rfl
        · exact .inl (by simpa using hblocks)
      contexts := fun id => (hcells.lawful id).complete
      present := fun id hblocks =>
        have hsome := (hcells.lawful id).present (himage hblocks)
        ⟨hsome, (hcells.lawful id).complete.resolve_left hsome⟩
      restored := fun id ready hblocks hcopied core hcore =>
        saved_of_resume hcells hsound ready (himage hblocks) hcopied hcore
      fixed := fun id => ⟨congrArg Cell.id (hcells.laid.get_blank id), hcells.laid.cores id,
        hcells.laid.memory id, hcells.laid.store id⟩ }

/-- Linux is hibernated and has an image, and windows has run in between. -/
theorem lifecycle_invariant_compact :
    let host := Host.Operation.run [.boot, .hibernate .linux, .resume .windows, .hibernate .windows]
      Host.compact
    host.Orderly .compact .halved ∧ Host.Ready .linux host.cells ∧
      0 < (host.cells.get .linux).blocks := by
  intro host
  have hprobe : (Topology.probe (SimMachine.ofCores 4).leaf Config.compact.linuxCores ()).outcome =
      .ok .halved := by decide
  exact ⟨lifecycle_invariant validate_compact hprobe (Host.Operation.leads_run _ Host.compact),
    ⟨by decide +kernel, by decide +kernel, by decide +kernel⟩, by decide +kernel⟩

end CellVisor
