import CellVisor.Proofs.Cell.Frame
import CellVisor.Proofs.Cpu.Split
import CellVisor.Proofs.Noninterference.Machine

/-!
# CellVisor.Proofs.Noninterference.Cells

The steps of the lifecycle on two hosts that differ only in what is private to one cell.

* `Host.Like`: the machines agree, the cells differ at most in the contexts that were saved of the
  private cell, and these are contexts of its own cores.
* `coupled_hibernate`, `coupled_resume`, `coupled_boot`: each step, whether of the private cell or
  of the other, goes the same way on both hosts and leaves them alike.
-/

namespace CellVisor

open SimMachine

namespace Cell

def unsaved (cell : Cell) : Cell := { cell with saved := [] }

/-- Two records of the same cell, with everything equal but the saved contexts of the private cell
`id`, which are contexts of cores of that cell. -/
structure Like (config : Config) (topology : Topology) (id cell : CellId) (first second : Cell) :
    Prop where
  laid : first.blank = .fresh cell (topology.ranges.get cell) (config.cells.get cell)
  unsaved : first.unsaved = second.unsaved
  saved : cell ≠ id → first.saved = second.saved
  owned : cell = id → ∀ context, context ∈ first.saved ∨ context ∈ second.saved →
    (topology.ranges.get id).contains context.core = true

namespace Like

variable {config : Config} {topology : Topology} {id cell : CellId} {first second : Cell}
  (h : Like config topology id cell first second)

include h

theorem state : first.state = second.state := by
  simpa [Cell.unsaved] using congrArg Cell.state h.unsaved

theorem blocks : first.blocks = second.blocks := by
  simpa [Cell.unsaved] using congrArg Cell.blocks h.unsaved

theorem hasImage : first.hasImage = second.hasImage := by
  rw [Cell.hasImage, h.blocks, Cell.hasImage]

theorem cores : first.cores = topology.ranges.get cell := congrArg Cell.cores h.laid

theorem memory : first.memory = (config.cells.get cell).memory := congrArg Cell.memory h.laid

theorem store : first.store = (config.cells.get cell).store := congrArg Cell.store h.laid

theorem symm : Like config topology id cell second first where
  laid := (congrArg Cell.blank h.unsaved).symm.trans h.laid
  unsaved := h.unsaved.symm
  saved hcell := (h.saved hcell).symm
  owned hcell context hcontext := h.owned hcell context hcontext.symm

/-- The record of a cell that is not the private one is the same. -/
theorem eq_of_ne (hcell : cell ≠ id) : first = second := by
  have hsaved := h.saved hcell
  have hunsaved := h.unsaved
  cases first
  cases second
  simp_all [Cell.unsaved]

theorem moveTo (target : CellState) :
    Like config topology id cell { first with state := target }
      { second with state := target } where
  laid := h.laid
  unsaved := congrArg (fun cell => { cell with state := target }) h.unsaved
  saved := h.saved
  owned := h.owned

theorem counted (blocks : UInt32) :
    Like config topology id cell { first with blocks } { second with blocks } where
  laid := h.laid
  unsaved := congrArg (fun cell => { cell with blocks }) h.unsaved
  saved := h.saved
  owned := h.owned

/-- Both take down contexts of their own cores, and the same ones unless these are private. -/
theorem takeDown {saved saved' : List SavedContext} (hsame : cell ≠ id → saved = saved')
    (howned : ∀ context, context ∈ saved ∨ context ∈ saved' →
      (topology.ranges.get cell).contains context.core = true) :
    Like config topology id cell { first with saved } { second with saved := saved' } where
  laid := h.laid
  unsaved := h.unsaved
  saved := hsame
  owned := by
    rintro rfl
    exact howned

end Like
end Cell

namespace Host

/-- Two hosts that differ only in what is private to the cell `id`. -/
structure Like (config : Config) (topology : Topology) (id : CellId)
    (first second : Host SimMachine) : Prop where
  machine : Agree config topology id first.machine second.machine
  barrier : first.cells.barrier = second.cells.barrier
  blockSize : first.cells.blockSize = second.cells.blockSize
  cells : ∀ cell, Cell.Like config topology id cell (first.cells.get cell) (second.cells.get cell)

section Like

variable {config : Config} {topology : Topology} {id : CellId} {first second : Host SimMachine}

theorem Like.state (h : Like config topology id first second) (cell : CellId) :
    first.cells.state cell = second.cells.state cell := (h.cells cell).state

theorem Like.setCell (h : Like config topology id first second) {cell : CellId}
    {next next' : Cell} (hcell : Cell.Like config topology id cell next next') :
    Like config topology id (first.setCell cell next) (second.setCell cell next') where
  machine := h.machine
  barrier := h.barrier
  blockSize := h.blockSize
  cells := by
    intro other
    unfold Host.setCell
    rw [Cells.get_set, Cells.get_set]
    split
    · rename_i hother
      rw [hother]
      exact hcell
    · exact h.cells other

theorem Like.setMachine (h : Like config topology id first second) {machine machine' : SimMachine}
    (hmachine : Agree config topology id machine machine') :
    Like config topology id (first.setMachine machine) (second.setMachine machine') :=
  ⟨hmachine, h.barrier, h.blockSize, h.cells⟩

/-! ## Parts -/

theorem coupled_onMachine {α : Type} {V : α → α → Prop} {action action' : Action SimMachine α}
    (h : Action.Coupled (Agree config topology id) V action action') :
    Action.Coupled (Like config topology id) V (onMachine action) (onMachine action') :=
  h.zoom (fun _ _ h => h.machine) fun _ _ _ _ h hmachine => h.setMachine hmachine

theorem coupled_cell (cell : CellId) :
    Action.Coupled (Like config topology id) (Cell.Like config topology id cell)
      (Host.cell cell) (Host.cell cell) :=
  Action.coupled_get.bind fun _ _ h => Action.coupled_pure (h.cells cell)

theorem coupled_enter (cell : CellId) (target : CellState) :
    Action.Coupled (Like config topology id) Eq (enter cell target) (enter cell target) := by
  refine (coupled_cell cell).bind fun first second hcell => ?_
  rw [hcell.state]
  refine Action.coupled_ite Iff.rfl ?_ (Action.coupled_fail _)
  exact (Action.coupled_note _).bind_eq fun _ =>
    Action.coupled_update fun _ _ h => h.setCell (hcell.moveTo target)

theorem coupled_markFailed (cell : CellId) :
    Action.Coupled (Like config topology id) Eq (markFailed cell) (markFailed cell) := by
  refine (coupled_cell cell).bind fun first second hcell => ?_
  rw [hcell.state]
  refine Action.coupled_ite Iff.rfl ?_ (Action.coupled_pure rfl)
  exact (Action.coupled_note _).bind_eq fun _ =>
    Action.coupled_update fun _ _ h => h.setCell (hcell.moveTo .error)

theorem coupled_rendezvous (cell : CellId) (signal : Signal) :
    Action.Coupled (Like config topology id) Eq (rendezvous cell signal)
      (rendezvous cell signal) := by
  refine Action.coupled_get.bind fun first second h => ?_
  rw [h.barrier, (h.cells cell).cores, (h.cells cell).symm.cores]
  exact coupled_onMachine (SimMachine.coupled_rendezvous _ _ _)

theorem coupled_boot :
    Action.Coupled (Like config topology id) Eq (boot : Action (Host SimMachine) Unit) boot := by
  refine Action.coupled_get.bind fun first second h => ?_
  dsimp only
  rw [h.state, h.state, (h.cells .windows).cores, (h.cells .windows).symm.cores]
  refine Action.coupled_ite Iff.rfl (Action.coupled_fail_bind _) ?_
  refine (coupled_enter .linux .running).bind_eq fun _ => ?_
  refine (coupled_rendezvous .windows .freeze).attempt.bind_eq fun result => ?_
  cases result with
  | ok => exact (coupled_enter _ _).bind_eq fun _ => Action.coupled_note _
  | error error => exact (Action.coupled_note _).bind_eq fun _ => coupled_markFailed _

/-! ## Hibernation and resumption -/

/-- The registers that a freeze takes down are those of the cores of the cell. -/
theorem Like.takeDown (h : Like config topology id first second) (hsplit : topology.IsSplit)
    (cell : CellId) :
    Cell.Like config topology id cell
      ((first.cells.get cell).savedOn first.machine)
      ((second.cells.get cell).savedOn second.machine) := by
  have hcell := h.cells cell
  refine hcell.takeDown (fun hother => ?_) fun context hcontext => ?_
  · -- the cell is not the private one, so none of its cores is
    unfold Cell.contextsOn
    rw [hcell.cores, hcell.symm.cores]
    refine List.map_congr_left fun core hcore => ?_
    rcases CellId.eq_or_eq_other id cell with rfl | rfl
    · exact absurd rfl hother
    · have hpublic := hsplit.disjoint cell core ((CoreRange.mem_toList _ _).1 hcore)
      exact congrArg (SavedContext.mk core) (h.machine.contexts core hpublic)
  · unfold Cell.contextsOn at hcontext
    rw [hcell.cores, hcell.symm.cores] at hcontext
    rw [← CoreRange.mem_toList]
    rcases hcontext with hcontext | hcontext
    · obtain ⟨core, hcore, rfl⟩ := List.mem_map.1 hcontext
      exact hcore
    · obtain ⟨core, hcore, rfl⟩ := List.mem_map.1 hcontext
      exact hcore

variable (hsound : config.IsSound) (hsplit : topology.IsSplit)

include hsound

theorem coupled_saveImage (h : Like config topology id first second) (cell : CellId) :
    Action.Coupled (Agree config topology id) Eq (first.cells.saveImage cell)
      (second.cells.saveImage cell) := by
  have hcell := h.cells cell
  unfold Cells.saveImage
  rw [hcell.memory, hcell.store, hcell.symm.memory, hcell.symm.store, h.blockSize]
  exact coupled_copy hsound (.memory cell) (.store cell) rfl rfl _

theorem coupled_loadImage (h : Like config topology id first second) (cell : CellId) :
    Action.Coupled (Agree config topology id) Eq (first.cells.loadImage cell)
      (second.cells.loadImage cell) := by
  have hcell := h.cells cell
  unfold Cells.loadImage
  rw [hcell.memory, hcell.store, hcell.symm.memory, hcell.symm.store, h.blockSize]
  exact coupled_copy hsound (.store cell) (.memory cell) rfl rfl _

include hsplit

theorem coupled_save (cell : CellId) :
    Action.Coupled (Like config topology id) Eq (save cell) (save cell) := by
  refine (coupled_rendezvous cell .freeze).bind_eq fun _ => ?_
  refine Action.coupled_get.bind fun first second h => ?_
  have hlength : ((first.cells.get cell).contextsOn first.machine).length =
      ((second.cells.get cell).contextsOn second.machine).length := by
    unfold Cell.contextsOn
    rw [List.length_map, List.length_map, (h.cells cell).cores, (h.cells cell).symm.cores]
  refine Action.coupled_ite ?_ (Action.coupled_fail_bind _) ?_
  · exact iff_of_eq (congrArg (maxCores < ·) hlength)
  · refine Action.Coupled.bind_eq (Action.coupled_update fun _ _ hnow => ?_) fun _ => ?_
    · exact hnow.setCell (h.takeDown hsplit cell)
    · exact coupled_onMachine (coupled_saveImage hsound h cell)

theorem coupled_hibernate (cell : CellId) :
    Action.Coupled (Like config topology id) Eq (hibernate cell) (hibernate cell) := by
  refine Action.coupled_get.bind fun first second h => ?_
  dsimp only
  rw [h.state]
  refine Action.coupled_ite Iff.rfl (Action.coupled_fail_bind _) ?_
  refine (coupled_save hsound hsplit cell).attempt.bind_eq fun result => ?_
  cases result with
  | error error =>
    exact (Action.coupled_note _).bind_eq fun _ => (coupled_markFailed cell).bind_eq fun _ =>
      Action.coupled_fail error
  | ok blocks =>
    refine (coupled_cell cell).bind fun _ _ hcell => ?_
    refine Action.Coupled.bind_eq (Action.coupled_update fun _ _ h => ?_) fun _ => ?_
    · exact h.setCell (hcell.counted blocks)
    · exact (coupled_enter cell .hibernated).bind_eq fun _ => Action.coupled_note _

omit hsplit hsound in
/-- Contexts of private cores may differ, others are the same. -/
theorem agree_setContexts {machine machine' : SimMachine}
    (h : Agree config topology id machine machine') {list list' : List SavedContext}
    (hlists : list = list' ∨ ∀ context, context ∈ list ∨ context ∈ list' →
      (topology.ranges.get id).contains context.core = true) :
    Agree config topology id (setContexts list machine) (setContexts list' machine') := by
  have hown : ∀ {list : List SavedContext} {machine machine' : SimMachine},
      (∀ context ∈ list, (topology.ranges.get id).contains context.core = true) →
      Agree config topology id machine machine' →
        Agree config topology id (setContexts list machine) machine' := by
    intro list
    induction list with
    | nil => exact fun _ h => h
    | cons context rest ih =>
      intro machine machine' howned h
      obtain ⟨hcore, hrest⟩ := List.forall_mem_cons.1 howned
      exact ih hrest (h.setContext_left hcore _)
  rcases hlists with rfl | howned
  · induction list generalizing machine machine' with
    | nil => exact h
    | cons context rest ih => exact ih (h.setContext_same _ _)
  · have hfirst := hown (fun context hcontext => howned context (.inl hcontext)) h
    exact (hown (fun context hcontext => howned context (.inr hcontext)) hfirst.symm).symm

omit hsplit in
theorem coupled_restore (cell : CellId) :
    Action.Coupled (Like config topology id) Eq (restore cell) (restore cell) := by
  refine Action.coupled_get.bind fun first second h => ?_
  have hcell := h.cells cell
  have hlists : (first.cells.get cell).saved = (second.cells.get cell).saved ∨
      ∀ context, context ∈ (first.cells.get cell).saved ∨
        context ∈ (second.cells.get cell).saved →
        (topology.ranges.get id).contains context.core = true := by
    by_cases hprivate : cell = id
    · exact .inr (hcell.owned hprivate)
    · exact .inl (hcell.saved hprivate)
  dsimp only
  rw [hcell.hasImage]
  refine Action.coupled_ite Iff.rfl ?_ ?_
  · refine (coupled_onMachine (coupled_loadImage hsound h cell)).bind_eq fun _ => ?_
    refine Action.Coupled.bind_eq (coupled_onMachine (Action.coupled_update fun _ _ hmachine => ?_))
      fun _ => coupled_rendezvous cell .thaw
    exact agree_setContexts hmachine hlists
  · unfold Cell.entry
    rw [hcell.cores, hcell.symm.cores, hcell.memory, hcell.symm.memory]
    refine (Action.coupled_note _).bind_eq fun _ => ?_
    refine Action.Coupled.bind_eq (coupled_onMachine (Action.coupled_update fun _ _ hmachine => ?_))
      fun _ => coupled_rendezvous cell .thaw
    exact agree_setContexts hmachine (.inl rfl)

omit hsplit in
theorem coupled_resume (cell : CellId) :
    Action.Coupled (Like config topology id) Eq (resume cell) (resume cell) := by
  refine Action.coupled_get.bind fun first second h => ?_
  dsimp only
  rw [h.state, h.state, (h.cells cell).cores, (h.cells cell).symm.cores]
  refine Action.coupled_ite Iff.rfl (Action.coupled_fail_bind _) ?_
  refine Action.coupled_ite Iff.rfl ?_ ?_
  · exact (Action.coupled_note _).bind_eq fun _ => Action.coupled_fail_bind _
  · refine Action.coupled_ite Iff.rfl (Action.coupled_fail_bind _) ?_
    refine (coupled_restore hsound cell).attempt.bind_eq fun result => ?_
    cases result with
    | error error =>
      exact (Action.coupled_note _).bind_eq fun _ => (coupled_markFailed cell).bind_eq fun _ =>
        Action.coupled_fail error
    | ok => exact (coupled_enter cell .running).bind_eq fun _ => Action.coupled_note _

end Like
end Host
end CellVisor
