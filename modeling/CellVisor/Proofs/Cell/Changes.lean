import CellVisor.Proofs.Exclusion.States

/-!
# CellVisor.Proofs.Cell.Changes

What an operation can make of the record of a cell.

* `Notice.moves`: the changes of the state of a cell that a log announces.
* `Cell.Changed`: the ways in which an operation changes a cell, with the changes of state that it
  announces. `changed_act`: there are no others.
-/

namespace CellVisor

/-! ## Announced changes of state -/

namespace Notice

/-- The change of the state of the cell `id` that a notice announces, if it does. -/
@[simp] def move? (id : CellId) : Notice → Option (CellState × CellState)
  | cellEntered cell source target => if cell = id then some (source, target) else none
  | cellFailed cell source => if cell = id then some (source, .error) else none
  | _ => none

def moves (id : CellId) (log : List Notice) : List (CellState × CellState) :=
  log.filterMap (move? id)

theorem Silent.move?_eq_none {notice : Notice} (h : notice.Silent) (id : CellId) :
    notice.move? id = none := by
  cases notice with
  | cellEntered cell source target =>
    -- the target is the state of the cell before, whichever that was
    have hrunning := congrArg (PerCell.get · cell) (h (.of fun _ => .running))
    have herror := congrArg (PerCell.get · cell) (h (.of fun _ => .error))
    simp only [follow, PerCell.get_set_self, PerCell.get_of] at hrunning herror
    rw [hrunning] at herror
    cases herror
  | cellFailed cell source =>
    have hrunning := congrArg (PerCell.get · cell) (h (.of fun _ => .running))
    simp only [follow, PerCell.get_set_self, PerCell.get_of] at hrunning
    cases hrunning
  | _ => rfl

@[simp] theorem moves_nil (id : CellId) : moves id [] = [] := rfl

@[simp] theorem moves_append (id : CellId) (first second : List Notice) :
    moves id (first ++ second) = moves id first ++ moves id second :=
  List.filterMap_append ..

@[simp] theorem moves_cons (id : CellId) (notice : Notice) (rest : List Notice) :
    moves id (notice :: rest) = (notice.move? id).toList ++ moves id rest := by
  unfold moves
  rw [List.filterMap_cons]
  cases notice.move? id <;> rfl

theorem moves_of_silent {log : List Notice} (h : ∀ notice ∈ log, notice.Silent) (id : CellId) :
    moves id log = [] :=
  List.filterMap_eq_nil_iff.2 fun notice hnotice => (h notice hnotice).move?_eq_none id

section Parts

variable {M : Type} [Machine M] {machine after : M} {log : List Notice} (id : CellId)

theorem moves_of_call {cells : Cells} {cell : CellId} {signal : Signal} {outcome : Outcome Unit}
    (h : cells.call cell signal machine = ⟨outcome, after, log⟩) : moves id log = [] :=
  moves_of_silent ((silent_rendezvous _ _ _).of_eq h) id

theorem moves_of_copy {target source size block : UInt64} {outcome : Outcome UInt32}
    (h : Image.copy target source size block machine = ⟨outcome, after, log⟩) :
    moves id log = [] :=
  moves_of_silent ((silent_copy _ _ _ _).of_eq h) id

theorem moves_of_loaded {cells : Cells} {cell : CellId}
    (h : Host.Loaded cells cell machine after log) : moves id log = [] :=
  moves_of_silent (silent_loaded h) id

end Parts

end Notice

/-! ## What becomes of a cell -/

namespace Cell

def withContexts (cell : Cell) (contexts : UInt32 → Context) : Cell :=
  { cell with saved := cell.cores.toList.map fun core => ⟨core, contexts core⟩ }

/-- What an operation makes of the cell `id`, and the changes of its state that it announces. -/
inductive Changed (blockSize : UInt64) (id : CellId) (cell : Cell) :
    List (CellState × CellState) → Cell → Prop where
  | kept : Changed blockSize id cell [] cell
  | failed (alive : cell.state ≠ .error) :
      Changed blockSize id cell [(cell.state, .error)] { cell with state := .error }
  | started (fresh : cell.state = .initializing) (linux : id = .linux) :
      Changed blockSize id cell [(.initializing, .running)] { cell with state := .running }
  | parked (fresh : cell.state = .initializing) :
      Changed blockSize id cell [(.initializing, .hibernated)] { cell with state := .hibernated }
  | resumed (hibernated : cell.state = .hibernated) (owned : cell.cores.isEmpty = false) :
      Changed blockSize id cell [(.hibernated, .running)] { cell with state := .running }
  /-- The contexts are taken down, and the copy halts. -/
  | taken {contexts : UInt32 → Context} (running : cell.state = .running) :
      Changed blockSize id cell [] (cell.withContexts contexts)
  | uncopied {contexts : UInt32 → Context} (running : cell.state = .running) :
      Changed blockSize id cell [(.running, .error)]
        { cell.withContexts contexts with state := .error }
  | hibernated {contexts : UInt32 → Context} {blocks : UInt32} (running : cell.state = .running)
      (counted : blocks.toNat = Image.blockCount cell.memory.size blockSize) :
      Changed blockSize id cell [(.running, .hibernated)]
        { cell.withContexts contexts with state := .hibernated, blocks }

section Changed

variable {blockSize : UInt64} {id : CellId} {cell after : Cell}
  {moves moves' : List (CellState × CellState)}

theorem changed_failed {source : CellState} (h : cell.state = source) (alive : source ≠ .error) :
    Changed blockSize id cell [(source, .error)] { cell with state := .error } := by
  subst h
  exact .failed alive

theorem Changed.of_moves (h : Changed blockSize id cell moves after) (hmoves : moves' = moves) :
    Changed blockSize id cell moves' after := hmoves ▸ h

end Changed

end Cell

namespace Host

section Changes

variable {M : Type} {id : CellId} {host : Host M} {reply : Reply (Host M) Unit}

/-- The cell `id` has changed in `reply`, and the other one has not. -/
structure Changes (id : CellId) (host : Host M) (reply : Reply (Host M) Unit) : Prop where
  own : Cell.Changed host.cells.blockSize id (host.cells.get id) (Notice.moves id reply.log)
    (reply.state.cells.get id)
  other : reply.state.cells.get id.other = host.cells.get id.other
  others : Notice.moves id.other reply.log = []

theorem Changes.changed (h : Changes id host reply) (cell : CellId) :
    Cell.Changed host.cells.blockSize cell (host.cells.get cell) (Notice.moves cell reply.log)
      (reply.state.cells.get cell) := by
  rcases CellId.eq_or_eq_other cell id with rfl | rfl
  · exact h.own
  · rw [h.other, h.others]
    exact .kept

theorem changes_markFailed (id : CellId) (host : Host M) :
    Changes id host (markFailed id host) := by
  have hother := get_other_markFailed id host
  by_cases h : host.cells.state id = .error
  · rw [markFailed_of_eq h] at hother ⊢
    exact ⟨.kept, hother, rfl⟩
  · rw [markFailed_of_ne h] at hother ⊢
    refine ⟨?_, hother, by simp [(CellId.other_ne id).symm]⟩
    rw [Cells.moveTo, Cells.get_set_self]
    exact (Cell.Changed.failed h).of_moves (by simp [Cells.state])

end Changes

section Steps

variable {M : Type} [Machine M]

theorem changes_hibernate (id : CellId) (host : Host M) : Changes id host (hibernate id host) := by
  have hother := get_other_hibernate id host
  have hne := (CellId.other_ne id).symm
  have hcases := hibernate_cases id host
  generalize hibernate id host = reply at hcases hother ⊢
  cases hcases with
  | refused => exact ⟨.kept, hother, rfl⟩
  | freezeHalted _ freeze =>
    have hfreeze := fun cell => Notice.moves_of_call cell freeze
    exact ⟨Cell.Changed.kept.of_moves (hfreeze id), hother, hfreeze id.other⟩
  | unfrozen running freeze | crowded running freeze =>
    have hfreeze := fun cell => Notice.moves_of_call cell freeze
    refine ⟨?_, hother, by simp [hfreeze, hne]⟩
    rw [Cells.moveTo, Cells.get_set_self]
    exact (Cell.changed_failed running (by decide)).of_moves (by simp [hfreeze])
  | copyHalted running freeze _ copy =>
    have hfreeze := fun cell => Notice.moves_of_call cell freeze
    have hcopy := fun cell => Notice.moves_of_copy cell copy
    refine ⟨?_, hother, by simp [hfreeze, hcopy]⟩
    rw [Cells.get_set_self]
    exact (Cell.Changed.taken running).of_moves (by simp [hfreeze, hcopy])
  | uncopied running freeze _ copy =>
    have hfreeze := fun cell => Notice.moves_of_call cell freeze
    have hcopy := fun cell => Notice.moves_of_copy cell copy
    refine ⟨?_, hother, by simp [hfreeze, hcopy, hne]⟩
    rw [Cells.get_set_self]
    exact (Cell.Changed.uncopied running).of_moves (by simp [hfreeze, hcopy])
  | hibernated running freeze _ copy =>
    have hfreeze := fun cell => Notice.moves_of_call cell freeze
    have hcopy := fun cell => Notice.moves_of_copy cell copy
    refine ⟨?_, hother, by simp [hfreeze, hcopy, hne]⟩
    rw [Cells.get_set_self]
    exact (Cell.Changed.hibernated running (Image.toNat_of_copy copy)).of_moves
      (by simp [hfreeze, hcopy])

theorem changes_resume (id : CellId) (host : Host M) : Changes id host (resume id host) := by
  have hother := get_other_resume id host
  have hne := (CellId.other_ne id).symm
  have hcases := resume_cases id host
  generalize resume id host = reply at hcases hother ⊢
  cases hcases with
  | refused | contended | coreless => exact ⟨.kept, hother, rfl⟩
  | copyHalted _ _ copy =>
    have hcopy := fun cell => Notice.moves_of_copy cell copy
    exact ⟨Cell.Changed.kept.of_moves (hcopy id), hother, hcopy id.other⟩
  | uncopied ready _ copy =>
    have hcopy := fun cell => Notice.moves_of_copy cell copy
    refine ⟨?_, hother, by simp [hcopy, hne]⟩
    rw [Cells.moveTo, Cells.get_set_self]
    exact (Cell.changed_failed ready.hibernated (by decide)).of_moves (by simp [hcopy])
  | thawHalted _ load thaw =>
    have hload := fun cell => Notice.moves_of_loaded cell load
    have hthaw := fun cell => Notice.moves_of_call cell thaw
    exact ⟨Cell.Changed.kept.of_moves (by simp [hload, hthaw]), hother, by simp [hload, hthaw]⟩
  | unthawed ready load thaw =>
    have hload := fun cell => Notice.moves_of_loaded cell load
    have hthaw := fun cell => Notice.moves_of_call cell thaw
    refine ⟨?_, hother, by simp [hload, hthaw, hne]⟩
    rw [Cells.moveTo, Cells.get_set_self]
    exact (Cell.changed_failed ready.hibernated (by decide)).of_moves (by simp [hload, hthaw])
  | resumed ready load thaw =>
    have hload := fun cell => Notice.moves_of_loaded cell load
    have hthaw := fun cell => Notice.moves_of_call cell thaw
    refine ⟨?_, hother, by simp [hload, hthaw, hne]⟩
    rw [Cells.moveTo, Cells.get_set_self]
    exact (Cell.Changed.resumed ready.hibernated ready.owned).of_moves (by simp [hload, hthaw])

/-- The start changes both cells. -/
theorem changed_boot (host : Host M) (cell : CellId) :
    Cell.Changed host.cells.blockSize cell (host.cells.get cell)
      (Notice.moves cell (boot host).log) ((boot host).state.cells.get cell) := by
  have hcases := boot_cases host
  generalize boot host = reply at hcases ⊢
  cases hcases with
  | refused => exact .kept
  | halted linux _ freeze =>
    have hfreeze := Notice.moves_of_call cell freeze
    cases cell with
    | linux => exact (Cell.Changed.started linux rfl).of_moves (by simp [hfreeze])
    | windows => exact Cell.Changed.kept.of_moves (by simp [hfreeze])
  | unparked linux windows freeze =>
    have hfreeze := Notice.moves_of_call cell freeze
    cases cell with
    | linux => exact (Cell.Changed.started linux rfl).of_moves (by simp [hfreeze])
    | windows =>
      exact (Cell.changed_failed windows (by decide)).of_moves (by simp [hfreeze])
  | parked linux windows freeze =>
    have hfreeze := Notice.moves_of_call cell freeze
    cases cell with
    | linux => exact (Cell.Changed.started linux rfl).of_moves (by simp [hfreeze])
    | windows => exact (Cell.Changed.parked windows).of_moves (by simp [hfreeze])

end Steps

/-- What an operation does to the record of a cell. -/
theorem Operation.changed_act (operation : Operation) (host : Host SimMachine) (cell : CellId) :
    Cell.Changed host.cells.blockSize cell (host.cells.get cell)
      (Notice.moves cell (operation.act host).log)
      ((operation.act host).state.cells.get cell) := by
  cases operation with
  | boot => exact changed_boot host cell
  | hibernate id => exact (changes_hibernate id host).changed cell
  | resume id => exact (changes_resume id host).changed cell
  | fail id => exact (changes_markFailed id host).changed cell
  | disturb => exact .kept

end Host
end CellVisor
