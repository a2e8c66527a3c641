import CellVisor.Cell.Lifecycle
import CellVisor.Proofs.Action

/-!
# CellVisor.Proofs.Cell.Steps

The small steps of which the lifecycle of a cell is made, as equations.

* `enter_of_canEnter`, `markFailed_of_ne`, `markFailed_of_eq`: the changes of state.
* `rendezvous_apply`, `onMachine_apply`: what is done on the machine leaves the cells as they are.
-/

namespace CellVisor

namespace Cells

variable {M : Type} [Machine M]

def moveTo (cells : Cells) (id : CellId) (target : CellState) : Cells :=
  cells.set id { cells.get id with state := target }

def call (cells : Cells) (id : CellId) (signal : Signal) : Action M Unit :=
  cells.barrier.rendezvous (cells.get id).cores signal

/-- Copies the memory of a cell into its store. -/
def saveImage (cells : Cells) (id : CellId) : Action M UInt32 :=
  Image.copy (cells.get id).store.base (cells.get id).memory.base (cells.get id).memory.size
    cells.blockSize

/-- Copies the store of a cell back into its memory. -/
def loadImage (cells : Cells) (id : CellId) : Action M UInt32 :=
  Image.copy (cells.get id).memory.base (cells.get id).store.base (cells.get id).memory.size
    cells.blockSize

@[simp] theorem get_set_self (cells : Cells) (id : CellId) (cell : Cell) :
    (cells.set id cell).get id = cell := PerCell.get_set_self _ _ _

theorem get_set_of_ne (cells : Cells) {id other : CellId} (h : other ≠ id) (cell : Cell) :
    (cells.set id cell).get other = cells.get other := by
  rw [get_set, if_neg h]

@[simp] theorem set_set (cells : Cells) (id : CellId) (first second : Cell) :
    (cells.set id first).set id second = cells.set id second := by
  cases id <;> rfl

@[simp] theorem set_get (cells : Cells) (id : CellId) : cells.set id (cells.get id) = cells := by
  cases id <;> rfl

@[simp] theorem state_set_self (cells : Cells) (id : CellId) (cell : Cell) :
    (cells.set id cell).state id = cell.state := by
  rw [state, get_set_self]

@[simp] theorem state_moveTo (cells : Cells) (id : CellId) (target : CellState) :
    (cells.moveTo id target).state id = target := by
  rw [state, moveTo, get_set_self]

theorem moveTo_set (cells : Cells) (id : CellId) (cell : Cell) (target : CellState) :
    (cells.set id cell).moveTo id target = cells.set id { cell with state := target } := by
  rw [moveTo, get_set_self, set_set]

theorem get_moveTo_of_ne (cells : Cells) {id other : CellId} (h : other ≠ id)
    (target : CellState) : (cells.moveTo id target).get other = cells.get other :=
  get_set_of_ne cells h _

theorem state_moveTo_of_ne (cells : Cells) {id other : CellId} (h : other ≠ id)
    (target : CellState) : (cells.moveTo id target).state other = cells.state other := by
  rw [state, get_moveTo_of_ne cells h, state]

end Cells

namespace Host

variable {M : Type} {α : Type} {host : Host M} {id : CellId}

theorem cell_apply (id : CellId) (host : Host M) :
    cell id host = ⟨.ok (host.cells.get id), host, []⟩ := rfl

/-! ## Changes of state -/

theorem enter_of_canEnter {target : CellState}
    (h : (host.cells.state id).canEnter target = true) :
    enter id target host =
      ⟨.ok (), { host with cells := host.cells.moveTo id target },
        [.cellEntered id (host.cells.state id) target]⟩ := by
  have hcan : (host.cells.get id).state.canEnter target = true := h
  unfold enter
  rw [Action.bind_of_ok (cell_apply id host), Reply.after_nil, if_pos hcan]
  rfl

theorem markFailed_of_ne (h : host.cells.state id ≠ .error) :
    markFailed id host =
      ⟨.ok (), { host with cells := host.cells.moveTo id .error },
        [.cellFailed id (host.cells.state id)]⟩ := by
  have hne : (host.cells.get id).state ≠ .error := h
  unfold markFailed
  rw [Action.bind_of_ok (cell_apply id host), Reply.after_nil, if_pos hne]
  rfl

theorem markFailed_of_eq (h : host.cells.state id = .error) :
    markFailed id host = ⟨.ok (), host, []⟩ := by
  have hnot : ¬ (host.cells.get id).state ≠ .error := fun hne => hne h
  unfold markFailed
  rw [Action.bind_of_ok (cell_apply id host), Reply.after_nil, if_neg hnot]
  rfl

/-! ## The machine -/

theorem onMachine_apply {action : Action M α} {outcome : Outcome α} {after : M}
    {log : List Notice} (h : action host.machine = ⟨outcome, after, log⟩) :
    onMachine action host = ⟨outcome, { host with machine := after }, log⟩ := by
  rw [onMachine, Action.zoom_apply, h]
  rfl

theorem rendezvous_apply [Machine M] {signal : Signal} {outcome : Outcome Unit} {after : M}
    {log : List Notice} (h : host.cells.call id signal host.machine = ⟨outcome, after, log⟩) :
    rendezvous id signal host = ⟨outcome, { host with machine := after }, log⟩ := by
  unfold rendezvous
  rw [Action.bind_of_ok (Action.get_apply host), Reply.after_nil]
  exact onMachine_apply h

end Host
end CellVisor
