import CellVisor.Proofs.Cell.Steps

/-!
# CellVisor.Proofs.Cell.Hibernate

The hibernation of a cell on any machine: how it can go.

* `hibernate_cases`: it is refused, or it fails or halts in the freeze or in the copy, or it
  succeeds; with the state and the notices that it leaves in each case.
-/

namespace CellVisor

variable {M : Type} [Machine M]

namespace Cell

def contextsOn (cell : Cell) (machine : M) : List SavedContext :=
  cell.cores.toList.map fun core => ⟨core, Machine.context machine core⟩

def savedOn (cell : Cell) (machine : M) : Cell := { cell with saved := cell.contextsOn machine }

end Cell

namespace Host

/-- How the hibernation of the cell `id` goes. -/
inductive Hibernation (id : CellId) (host : Host M) : Reply (Host M) Unit → Prop where
  | refused (idle : host.cells.state id ≠ .running) :
      Hibernation id host ⟨.error .invalidState, host, []⟩
  | freezeHalted {fault : Fault} {frozen : M} {log : List Notice}
      (running : host.cells.state id = .running)
      (freeze : host.cells.call id .freeze host.machine = ⟨.fault fault, frozen, log⟩) :
      Hibernation id host ⟨.fault fault, ⟨frozen, host.cells⟩, log⟩
  | unfrozen {error : Error} {frozen : M} {log : List Notice}
      (running : host.cells.state id = .running)
      (freeze : host.cells.call id .freeze host.machine = ⟨.error error, frozen, log⟩) :
      Hibernation id host
        ⟨.error error, ⟨frozen, host.cells.moveTo id .error⟩,
          log ++ [.hibernationFailed id error, .cellFailed id .running]⟩
  | crowded {frozen : M} {log : List Notice} (running : host.cells.state id = .running)
      (freeze : host.cells.call id .freeze host.machine = ⟨.ok (), frozen, log⟩)
      (many : maxCores < ((host.cells.get id).contextsOn frozen).length) :
      Hibernation id host
        ⟨.error .resourceExhausted, ⟨frozen, host.cells.moveTo id .error⟩,
          log ++ [.hibernationFailed id .resourceExhausted, .cellFailed id .running]⟩
  | copyHalted {fault : Fault} {frozen copied : M} {log copyLog : List Notice}
      (running : host.cells.state id = .running)
      (freeze : host.cells.call id .freeze host.machine = ⟨.ok (), frozen, log⟩)
      (few : ((host.cells.get id).contextsOn frozen).length ≤ maxCores)
      (copy : host.cells.saveImage id frozen = ⟨.fault fault, copied, copyLog⟩) :
      Hibernation id host
        ⟨.fault fault, ⟨copied, host.cells.set id ((host.cells.get id).savedOn frozen)⟩,
          log ++ copyLog⟩
  | uncopied {error : Error} {frozen copied : M} {log copyLog : List Notice}
      (running : host.cells.state id = .running)
      (freeze : host.cells.call id .freeze host.machine = ⟨.ok (), frozen, log⟩)
      (few : ((host.cells.get id).contextsOn frozen).length ≤ maxCores)
      (copy : host.cells.saveImage id frozen = ⟨.error error, copied, copyLog⟩) :
      Hibernation id host
        ⟨.error error,
          ⟨copied, host.cells.set id
            { (host.cells.get id).savedOn frozen with state := .error }⟩,
          log ++ copyLog ++ [.hibernationFailed id error, .cellFailed id .running]⟩
  | hibernated {blocks : UInt32} {frozen copied : M} {log copyLog : List Notice}
      (running : host.cells.state id = .running)
      (freeze : host.cells.call id .freeze host.machine = ⟨.ok (), frozen, log⟩)
      (few : ((host.cells.get id).contextsOn frozen).length ≤ maxCores)
      (copy : host.cells.saveImage id frozen = ⟨.ok blocks, copied, copyLog⟩) :
      Hibernation id host
        ⟨.ok (),
          ⟨copied, host.cells.set id
            { (host.cells.get id).savedOn frozen with state := .hibernated, blocks }⟩,
          log ++ copyLog ++ [.cellEntered id .running .hibernated, .cellHibernated id blocks]⟩

variable {id : CellId} {host : Host M}

/-- The state in which an image is copied: frozen, and with the contexts taken down. -/
def taken (host : Host M) (id : CellId) (frozen : M) : Host M :=
  ⟨frozen, host.cells.set id ((host.cells.get id).savedOn frozen)⟩

theorem save_of_unfrozen {error : Error} {frozen : M} {log : List Notice}
    (freeze : host.cells.call id .freeze host.machine = ⟨.error error, frozen, log⟩) :
    save id host = ⟨.error error, ⟨frozen, host.cells⟩, log⟩ := by
  unfold save
  rw [Action.bind_of_error (rendezvous_apply freeze)]

theorem save_of_halted {fault : Fault} {frozen : M} {log : List Notice}
    (freeze : host.cells.call id .freeze host.machine = ⟨.fault fault, frozen, log⟩) :
    save id host = ⟨.fault fault, ⟨frozen, host.cells⟩, log⟩ := by
  unfold save
  rw [Action.bind_of_fault (rendezvous_apply freeze)]

theorem save_of_crowded {frozen : M} {log : List Notice}
    (freeze : host.cells.call id .freeze host.machine = ⟨.ok (), frozen, log⟩)
    (many : maxCores < ((host.cells.get id).contextsOn frozen).length) :
    save id host = ⟨.error .resourceExhausted, ⟨frozen, host.cells⟩, log⟩ := by
  unfold save
  rw [Action.bind_of_ok (rendezvous_apply freeze), Action.bind_of_ok (Action.get_apply _)]
  split
  · rw [Action.fail_bind, Reply.after_nil, Reply.after_mk, List.append_nil]
  · contradiction

theorem save_of_frozen {frozen : M} {log : List Notice}
    (freeze : host.cells.call id .freeze host.machine = ⟨.ok (), frozen, log⟩)
    (few : ((host.cells.get id).contextsOn frozen).length ≤ maxCores) :
    save id host =
      (onMachine (host.cells.saveImage id) (host.taken id frozen)).after log := by
  unfold save
  rw [Action.bind_of_ok (rendezvous_apply freeze), Action.bind_of_ok (Action.get_apply _)]
  split
  · rename_i many
    exact absurd many (Nat.not_lt.2 few)
  · rfl

theorem hibernate_of_error {error : Error} {after : Host M} {log : List Notice}
    (running : host.cells.state id = .running) (save : save id host = ⟨.error error, after, log⟩)
    (still : after.cells.state id = .running) :
    hibernate id host =
      ⟨.error error, { after with cells := after.cells.moveTo id .error },
        log ++ [.hibernationFailed id error, .cellFailed id .running]⟩ := by
  have hne : after.cells.state id ≠ .error := by
    rw [still]
    decide
  unfold hibernate
  rw [Action.bind_of_ok (Action.get_apply host), Reply.after_nil, if_neg fun h => h running]
  dsimp only
  rw [Action.bind_of_ok (Action.attempt_of_error save)]
  dsimp only
  rw [Action.note_bind, Action.bind_of_ok (markFailed_of_ne hne)]
  simp [still]

theorem hibernate_of_fault {fault : Fault} {after : Host M} {log : List Notice}
    (running : host.cells.state id = .running)
    (save : save id host = ⟨.fault fault, after, log⟩) :
    hibernate id host = ⟨.fault fault, after, log⟩ := by
  unfold hibernate
  rw [Action.bind_of_ok (Action.get_apply host), Reply.after_nil, if_neg fun h => h running]
  dsimp only
  rw [Action.bind_of_fault (Action.attempt_of_fault save)]

theorem hibernate_of_ok {blocks : UInt32} {after : Host M} {log : List Notice}
    (running : host.cells.state id = .running) (save : save id host = ⟨.ok blocks, after, log⟩)
    (still : after.cells.state id = .running) :
    hibernate id host =
      ⟨.ok (), { after with
          cells := after.cells.set id { after.cells.get id with state := .hibernated, blocks } },
        log ++ [.cellEntered id .running .hibernated, .cellHibernated id blocks]⟩ := by
  let counted : Host M := setCell id { after.cells.get id with blocks } after
  have hstate : counted.cells.state id = .running := by
    show ((after.cells.set id _).get id).state = _
    rw [Cells.get_set_self]
    exact still
  have henter : (counted.cells.state id).canEnter .hibernated = true := by
    rw [hstate]
    rfl
  unfold hibernate
  rw [Action.bind_of_ok (Action.get_apply host), Reply.after_nil, if_neg fun h => h running]
  dsimp only
  rw [Action.bind_of_ok (Action.attempt_of_ok save)]
  dsimp only
  rw [Action.bind_of_ok (cell_apply id after), Action.bind_of_ok (Action.update_apply _ _),
    Action.bind_of_ok (enter_of_canEnter henter), hstate]
  simp [counted, setCell, Cells.moveTo]

theorem hibernate_cases (id : CellId) (host : Host M) :
    Hibernation id host (hibernate id host) := by
  by_cases running : host.cells.state id = .running
  · cases freeze : host.cells.call id .freeze host.machine with
    | mk outcome frozen log =>
      cases outcome with
      | error error =>
        rw [hibernate_of_error running (save_of_unfrozen freeze) running]
        exact .unfrozen running freeze
      | fault fault =>
        rw [hibernate_of_fault running (save_of_halted freeze)]
        exact .freezeHalted running freeze
      | ok =>
        by_cases many : maxCores < ((host.cells.get id).contextsOn frozen).length
        · rw [hibernate_of_error running (save_of_crowded freeze many) running]
          exact .crowded running freeze many
        · have few := Nat.not_lt.1 many
          have hsave := save_of_frozen freeze few
          have still : (host.taken id frozen).cells.state id = .running := by
            show ((host.cells.set id _).get id).state = _
            rw [Cells.get_set_self]
            exact running
          cases copy : host.cells.saveImage id frozen with
          | mk outcome copied copyLog =>
            have hcopy : onMachine (host.cells.saveImage id) (host.taken id frozen) =
                ⟨outcome, { host.taken id frozen with machine := copied }, copyLog⟩ :=
              onMachine_apply copy
            rw [hcopy, Reply.after_mk] at hsave
            cases outcome with
            | error error =>
              rw [hibernate_of_error running hsave still]
              simp only [taken, Cells.moveTo_set]
              exact .uncopied running freeze few copy
            | fault fault =>
              rw [hibernate_of_fault running hsave]
              exact .copyHalted running freeze few copy
            | ok blocks =>
              rw [hibernate_of_ok running hsave still]
              simp only [taken, Cells.set_set, Cells.get_set_self]
              exact .hibernated running freeze few copy
  · unfold hibernate
    rw [Action.bind_of_ok (Action.get_apply host), Reply.after_nil, if_pos running]
    exact .refused running

end Host
end CellVisor
