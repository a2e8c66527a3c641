import CellVisor.Proofs.Barrier.Trace
import CellVisor.Proofs.Cell.Frame
import CellVisor.Proofs.Sim.Kept

/-!
# CellVisor.Proofs.Cell.Events

In what order the events of a step of the lifecycle come on the simulated machine.

* `freezes_hibernate`: a hibernation freezes every core of its cell, and copies only once all of
  them have acknowledged; otherwise it copies nothing and takes down no context.
* `thaws_resume`: a resumption copies first, and thaws the cores of its cell after that.
-/

namespace CellVisor

open SimMachine

/-- The events of a hibernation: a freeze of each core in ascending order, then acknowledgments of
them, then copies. -/
inductive Freezes (id : CellId) (cores : CoreRange) (before after : Host SimMachine) : Prop where
  | refused (same : after = before)
  | called (acks : List UInt32) (copies : List SimEvent)
      (events : after.machine.events = before.machine.events ++
        (Barrier.signals cores .freeze ++ Barrier.answers .freeze acks ++ copies))
      (once : acks.Nodup) (inside : acks ⊆ cores.toList)
      (copied : ∀ event ∈ copies, event.copied?.isSome = true)
      (complete : copies ≠ [] → acks.Perm cores.toList)
      (spared : (∃ core ∈ cores.toList, core ∉ acks) →
        copies = [] ∧ (after.cells.get id).saved = (before.cells.get id).saved)

/-- The events of a resumption: copies, and after all of them the thaw of the cores, if it comes to
that. -/
def ThawsLast (cores : CoreRange) (before after : SimMachine) : Prop :=
  ∃ copies thaws, after.events = before.events ++ (copies ++ thaws) ∧
    (∀ event ∈ copies, event.copied?.isSome = true) ∧
    (thaws = [] ∨ ∃ acks, acks.Nodup ∧ acks ⊆ cores.toList ∧
      thaws = Barrier.signals cores .thaw ++ Barrier.answers .thaw acks)

section Parts

variable {cells : Cells} {id : CellId} {signal : Signal} {machine after : SimMachine}
  {log : List Notice}

theorem called_of_call {outcome : Outcome Unit}
    (hcores : (cells.get id).cores.stop.toNat ≤ maxCores)
    (h : cells.call id signal machine = ⟨outcome, after, log⟩) :
    ∃ acks, Barrier.Called (cells.get id).cores signal acks machine after ∧
      (outcome = .ok () → acks.Perm (cells.get id).cores.toList) ∧
      ∀ error, outcome = .error error → ∃ core ∈ (cells.get id).cores.toList, core ∉ acks := by
  have hcall : cells.barrier.rendezvous (cells.get id).cores signal machine =
      ⟨outcome, after, log⟩ := h
  have hcalled := Barrier.called_rendezvous hcores cells.barrier signal machine
  rw [hcall] at hcalled
  exact hcalled

theorem copied_of_copy {target source size block : UInt64} {outcome : Outcome UInt32}
    (h : Image.copy target source size block machine = ⟨outcome, after, log⟩) :
    ∃ copies, after.events = machine.events ++ copies ∧
      ∀ event ∈ copies, event.copied?.isSome = true := by
  have hkeeps : Action.Keeps (machine.GoneOn fun event => event.copied?.isSome = true)
      (Image.copy target source size block) := keeps_goneOn_copy block fun _ => rfl
  exact hkeeps.of_eq goneOn_refl h

end Parts

section Steps

variable {host : Host SimMachine}

theorem freezes_hibernate (id : CellId) (hcores : (host.cells.get id).cores.stop.toNat ≤ maxCores) :
    Freezes id (host.cells.get id).cores host (Host.hibernate id host).state := by
  have hcases := Host.hibernate_cases id host
  generalize Host.hibernate id host = reply at hcases ⊢
  cases hcases with
  | refused => exact .refused rfl
  | freezeHalted _ freeze | unfrozen _ freeze | crowded _ freeze =>
    obtain ⟨acks, hcalled, -, -⟩ := called_of_call hcores freeze
    refine .called acks [] ?_ hcalled.once hcalled.inside (by simp) (by simp) fun _ => ⟨rfl, ?_⟩
    · rw [List.append_nil]
      exact hcalled.events
    · simp [Cells.moveTo]
  | copyHalted _ freeze _ copy | uncopied _ freeze _ copy | hibernated _ freeze _ copy =>
    obtain ⟨acks, hcalled, hall, -⟩ := called_of_call hcores freeze
    obtain ⟨copies, hcopies, hcopied⟩ := copied_of_copy copy
    refine .called acks copies ?_ hcalled.once hcalled.inside hcopied (fun _ => hall rfl) ?_
    · rw [hcopies, hcalled.events, List.append_assoc]
    · rintro ⟨core, hcore, hlate⟩
      exact absurd ((hall rfl).mem_iff.2 hcore) hlate

/-- What is loaded before a thaw is copied and recorded, and contexts are set without a record. -/
theorem copied_of_loaded {id : CellId} {loaded : SimMachine} {log : List Notice}
    (load : Host.Loaded host.cells id host.machine loaded log) :
    ∃ copies, loaded.events = host.machine.events ++ copies ∧
      ∀ event ∈ copies, event.copied?.isSome = true := by
  have hkeeps : Action.Keeps (host.machine.GoneOn fun event => event.copied?.isSome = true)
      (host.cells.loadImage id) := keeps_goneOn_copy _ fun _ => rfl
  exact Host.kept_loaded hkeeps (fun h => h.of_eq (events_setContext _ _ _)) load goneOn_refl

theorem thaws_resume (id : CellId) (hcores : (host.cells.get id).cores.stop.toNat ≤ maxCores) :
    ThawsLast (host.cells.get id).cores host.machine (Host.resume id host).state.machine := by
  have hcases := Host.resume_cases id host
  generalize Host.resume id host = reply at hcases ⊢
  cases hcases with
  | refused | contended | coreless => exact ⟨[], [], by simp, by simp, .inl rfl⟩
  | copyHalted _ _ copy | uncopied _ _ copy =>
    obtain ⟨copies, hcopies, hcopied⟩ := copied_of_copy copy
    exact ⟨copies, [], by simpa using hcopies, hcopied, .inl rfl⟩
  | thawHalted _ load thaw | unthawed _ load thaw | resumed _ load thaw =>
    obtain ⟨copies, hcopies, hcopied⟩ := copied_of_loaded load
    obtain ⟨acks, hcalled, -, -⟩ := called_of_call hcores thaw
    refine ⟨copies, _, ?_, hcopied, .inr ⟨acks, hcalled.once, hcalled.inside, rfl⟩⟩
    rw [hcalled.events, hcopies, List.append_assoc]

end Steps
end CellVisor
