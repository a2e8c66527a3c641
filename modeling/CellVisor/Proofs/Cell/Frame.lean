import CellVisor.Proofs.Barrier.Rendezvous
import CellVisor.Proofs.Cell.Hibernate
import CellVisor.Proofs.Cell.Resume

/-!
# CellVisor.Proofs.Cell.Frame

What a step of the lifecycle leaves alone.

* `Cells.Laid`: where the cells are, which cores they have, and what the steps depend on.
* `blank_hibernate`, `blank_resume`, `blank_boot`, `blank_markFailed`: each step leaves the layout.
* `get_other_hibernate`, `get_other_resume`, `get_other_markFailed`: a step of one cell leaves the
  record of the other.
* `state_of_hibernate_ok` and the lemmas after it: in which state a step leaves its cell.
* `kept_hibernate`, `kept_resume`, `kept_boot`: what the primitives keep of the machine, a step
  keeps.
-/

namespace CellVisor

namespace Cell

/-- The cell as it was before it was started. -/
def blank (cell : Cell) : Cell := { cell with state := .initializing, saved := [], blocks := 0 }

end Cell

namespace Cells

def blank (cells : Cells) : Cells := { cells with cells := .of fun id => (cells.get id).blank }

/-- The cells lie as a configuration and a topology lay them out. -/
def Laid (config : Config) (topology : Topology) (cells : Cells) : Prop :=
  cells.blank = .fresh config topology

theorem laid_fresh (config : Config) (topology : Topology) :
    (fresh config topology).Laid config topology := rfl

theorem blank_set {cells : Cells} {id : CellId} {cell : Cell}
    (h : cell.blank = (cells.get id).blank) : (cells.set id cell).blank = cells.blank := by
  have hcells : ∀ other, ((cells.set id cell).get other).blank = (cells.get other).blank := by
    intro other
    rw [get_set]
    split
    · rename_i hother
      rw [h, hother]
    · rfl
  unfold blank
  congr 1
  apply PerCell.ext_get
  intro other
  rw [PerCell.get_of, PerCell.get_of, hcells]

@[simp] theorem blank_moveTo (cells : Cells) (id : CellId) (target : CellState) :
    (cells.moveTo id target).blank = cells.blank := blank_set rfl

namespace Laid

variable {config : Config} {topology : Topology} {cells : Cells}

theorem of_blank_eq {after : Cells} (h : cells.Laid config topology)
    (hblank : after.blank = cells.blank) : after.Laid config topology := hblank.trans h

theorem get_blank (h : cells.Laid config topology) (id : CellId) :
    (cells.get id).blank =
      Cell.fresh id (topology.ranges.get id) (config.cells.get id) := by
  have hget : cells.blank.get id = (cells.get id).blank := PerCell.get_of _ _
  rw [← hget, h]
  exact PerCell.get_of _ _

theorem cores (h : cells.Laid config topology) (id : CellId) :
    (cells.get id).cores = topology.ranges.get id := congrArg Cell.cores (h.get_blank id)

theorem memory (h : cells.Laid config topology) (id : CellId) :
    (cells.get id).memory = (config.cells.get id).memory := congrArg Cell.memory (h.get_blank id)

theorem store (h : cells.Laid config topology) (id : CellId) :
    (cells.get id).store = (config.cells.get id).store := congrArg Cell.store (h.get_blank id)

theorem barrier (h : cells.Laid config topology) : cells.barrier = ⟨config.freezeTimeout⟩ :=
  congrArg Cells.barrier h

theorem blockSize (h : cells.Laid config topology) : cells.blockSize = config.blockSize :=
  congrArg Cells.blockSize h

end Laid
end Cells

namespace Host

variable {M : Type} (id : CellId) (host : Host M)

theorem blank_markFailed : (markFailed id host).state.cells.blank = host.cells.blank := by
  by_cases h : host.cells.state id = .error
  · rw [markFailed_of_eq h]
  · rw [markFailed_of_ne h]
    exact Cells.blank_moveTo _ _ _

theorem machine_markFailed : (markFailed id host).state.machine = host.machine := by
  by_cases h : host.cells.state id = .error
  · rw [markFailed_of_eq h]
  · rw [markFailed_of_ne h]

theorem state_markFailed : (markFailed id host).state.cells.state id = .error := by
  by_cases h : host.cells.state id = .error
  · rw [markFailed_of_eq h, h]
  · rw [markFailed_of_ne h]
    exact Cells.state_moveTo _ _ _

theorem get_other_markFailed :
    (markFailed id host).state.cells.get id.other = host.cells.get id.other := by
  by_cases h : host.cells.state id = .error
  · rw [markFailed_of_eq h]
  · rw [markFailed_of_ne h]
    exact Cells.get_moveTo_of_ne _ (CellId.other_ne id) _

variable [Machine M]

theorem blank_hibernate : (hibernate id host).state.cells.blank = host.cells.blank := by
  have hcases := hibernate_cases id host
  generalize hibernate id host = reply at hcases ⊢
  cases hcases with
  | refused | freezeHalted => rfl
  | unfrozen | crowded => exact Cells.blank_moveTo _ _ _
  | copyHalted | uncopied | hibernated => exact Cells.blank_set rfl

theorem get_other_hibernate :
    (hibernate id host).state.cells.get id.other = host.cells.get id.other := by
  have hcases := hibernate_cases id host
  generalize hibernate id host = reply at hcases ⊢
  cases hcases with
  | refused | freezeHalted => rfl
  | unfrozen | crowded => exact Cells.get_moveTo_of_ne _ (CellId.other_ne id) _
  | copyHalted | uncopied | hibernated => exact Cells.get_set_of_ne _ (CellId.other_ne id) _

theorem blank_resume : (resume id host).state.cells.blank = host.cells.blank := by
  have hcases := resume_cases id host
  generalize resume id host = reply at hcases ⊢
  cases hcases with
  | refused | contended | coreless | copyHalted | thawHalted => rfl
  | uncopied | unthawed | resumed => exact Cells.blank_moveTo _ _ _

theorem get_other_resume :
    (resume id host).state.cells.get id.other = host.cells.get id.other := by
  have hcases := resume_cases id host
  generalize resume id host = reply at hcases ⊢
  cases hcases with
  | refused | contended | coreless | copyHalted | thawHalted => rfl
  | uncopied | unthawed | resumed => exact Cells.get_moveTo_of_ne _ (CellId.other_ne id) _

theorem blank_boot : (boot host).state.cells.blank = host.cells.blank := by
  have hcases := boot_cases host
  generalize boot host = reply at hcases ⊢
  cases hcases with
  | refused => rfl
  | halted => exact Cells.blank_moveTo _ _ _
  | unparked | parked => rw [Cells.blank_moveTo, Cells.blank_moveTo]

/-! ## Where a step ends -/

section State

variable {id host} {after : Host M} {log : List Notice}

theorem state_of_hibernate_ok (h : hibernate id host = ⟨.ok (), after, log⟩) :
    after.cells.state id = .hibernated := by
  have hcases := hibernate_cases id host
  rw [h] at hcases
  cases hcases
  exact Cells.state_set_self _ _ _

theorem state_of_hibernate_error {error : Error} (running : host.cells.state id = .running)
    (h : hibernate id host = ⟨.error error, after, log⟩) : after.cells.state id = .error := by
  have hcases := hibernate_cases id host
  rw [h] at hcases
  cases hcases with
  | refused idle => exact absurd running idle
  | unfrozen | crowded => exact Cells.state_moveTo _ _ _
  | uncopied => exact Cells.state_set_self _ _ _

theorem state_of_resume_ok (h : resume id host = ⟨.ok (), after, log⟩) :
    after.cells.state id = .running := by
  have hcases := resume_cases id host
  rw [h] at hcases
  cases hcases
  exact Cells.state_moveTo _ _ _

theorem state_of_resume_error {error : Error} (ready : Ready id host.cells)
    (h : resume id host = ⟨.error error, after, log⟩) : after.cells.state id = .error := by
  have hcases := resume_cases id host
  rw [h] at hcases
  cases hcases with
  | refused awake => exact absurd ready.hibernated awake
  | contended _ running => exact absurd running ready.alone
  | coreless _ _ empty => rw [ready.owned] at empty; cases empty
  | uncopied | unthawed => exact Cells.state_moveTo _ _ _

/-- A cell that was hibernated stays so when the other one is resumed. -/
theorem hibernated_of_resume_other {between : Host M} {outcome : Outcome Unit}
    {resumeLog : List Notice} (h : hibernate id host = ⟨.ok (), between, log⟩)
    (h' : resume id.other between = ⟨outcome, after, resumeLog⟩) :
    after.cells.state id = .hibernated := by
  have hother := get_other_resume id.other between
  rw [h', CellId.other_other] at hother
  rw [Cells.state, hother]
  exact state_of_hibernate_ok h

theorem state_of_boot_ok (h : boot host = ⟨.ok (), after, log⟩) :
    after.cells.state .linux = .running ∧ after.cells.state .windows ≠ .running := by
  have hcases := boot_cases host
  rw [h] at hcases
  cases hcases with
  | unparked | parked =>
    refine ⟨?_, ?_⟩
    · rw [Cells.state_moveTo_of_ne _ (by decide)]
      exact Cells.state_moveTo _ _ _
    · rw [Cells.state_moveTo]
      decide

end State

/-! ## What the machine keeps -/

variable {id host} {P : M → Prop}

/-- What a freeze of the cores of a cell and the copy of its image keep, its hibernation keeps. -/
theorem kept_hibernate
    (freeze : Barrier.Stable P (host.cells.get id).cores .freeze)
    (copy : Action.Keeps P (host.cells.saveImage id)) (h : P host.machine) :
    P (hibernate id host).state.machine := by
  have hfreeze := Barrier.keeps_rendezvous freeze host.cells.barrier
  have hcases := hibernate_cases id host
  generalize hibernate id host = reply at hcases ⊢
  cases hcases with
  | refused => exact h
  | freezeHalted _ frozen | unfrozen _ frozen | crowded _ frozen => exact hfreeze.of_eq h frozen
  | copyHalted _ frozen _ copied | uncopied _ frozen _ copied | hibernated _ frozen _ copied =>
    exact copy.of_eq (hfreeze.of_eq h frozen) copied

theorem kept_setContexts
    (contexts : ∀ {core context machine}, P machine → P (Machine.setContext core context machine))
    (list : List SavedContext) {machine : M} (h : P machine) : P (setContexts list machine) := by
  induction list generalizing machine with
  | nil => exact h
  | cons saved rest ih => exact ih (contexts h)

theorem kept_loaded (copy : Action.Keeps P (host.cells.loadImage id))
    (contexts : ∀ {core context machine}, P machine → P (Machine.setContext core context machine))
    {loaded : M} {log : List Notice} (load : Loaded host.cells id host.machine loaded log)
    (h : P host.machine) : P loaded := by
  cases load with
  | image _ copied => exact kept_setContexts contexts _ (copy.of_eq h copied)
  | start => exact kept_setContexts contexts _ h

/-- What the copy of an image, the setting of contexts and a thaw keep, a resumption keeps. -/
theorem kept_resume (thaw : Barrier.Stable P (host.cells.get id).cores .thaw)
    (copy : Action.Keeps P (host.cells.loadImage id))
    (contexts : ∀ {core context machine}, P machine → P (Machine.setContext core context machine))
    (h : P host.machine) : P (resume id host).state.machine := by
  have hthaw := Barrier.keeps_rendezvous thaw host.cells.barrier
  have hcases := resume_cases id host
  generalize resume id host = reply at hcases ⊢
  cases hcases with
  | refused | contended | coreless => exact h
  | copyHalted _ _ copied | uncopied _ _ copied => exact copy.of_eq h copied
  | thawHalted _ load thawed | unthawed _ load thawed | resumed _ load thawed =>
    exact hthaw.of_eq (kept_loaded copy contexts load h) thawed

/-- What a freeze of the cores of windows keeps, the start keeps. -/
theorem kept_boot (freeze : Barrier.Stable P (host.cells.get .windows).cores .freeze)
    (h : P host.machine) : P (boot host).state.machine := by
  have hfreeze := Barrier.keeps_rendezvous freeze host.cells.barrier
  have hcases := boot_cases host
  generalize boot host = reply at hcases ⊢
  cases hcases with
  | refused => exact h
  | halted _ _ frozen | unparked _ _ frozen | parked _ _ frozen => exact hfreeze.of_eq h frozen

end Host
end CellVisor
