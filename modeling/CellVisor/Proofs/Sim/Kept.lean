import CellVisor.Proofs.Barrier.Rendezvous
import CellVisor.Proofs.Image.Copy
import CellVisor.Proofs.Sim.Primitives

/-!
# CellVisor.Proofs.Sim.Kept

What a rendezvous on the simulated machine, and the copy of an image, keep.

* `stable_memory`, `stable_context`: a rendezvous leaves memory and the registers of every core.
* `stable_goneOn`, `keeps_goneOn_copy`: what either can add to the history, which only grows.
-/

namespace CellVisor
namespace SimMachine

/-! ## Memory and registers -/

theorem stable_memory (P : Physical → Prop) (cores : CoreRange) (signal : Signal) :
    Barrier.Stable (fun machine : SimMachine => P machine.memory) cores signal where
  signalled := by
    intro core machine next _ hsignal h
    rw [memory_of_signalCore hsignal]
    exact h
  asked := by
    intro core machine _ h
    show P (acknowledged core signal machine).2.memory
    rw [memory_acknowledged]
    exact h
  timed := by
    intro machine time next hclock h
    obtain ⟨-, rfl⟩ := now_eq_some.1 hclock
    exact h

theorem stable_context (P : (UInt32 → Context) → Prop) (cores : CoreRange) (signal : Signal) :
    Barrier.Stable (fun machine : SimMachine => P machine.context) cores signal where
  signalled := by
    intro core machine next _ hsignal h
    rw [context_of_signalCore hsignal]
    exact h
  asked := by
    intro core machine _ h
    show P (acknowledged core signal machine).2.context
    rw [context_acknowledged]
    exact h
  timed := by
    intro machine time next hclock h
    obtain ⟨-, rfl⟩ := now_eq_some.1 hclock
    exact h

theorem keeps_isParked_copy (P : (UInt32 → Bool) → Prop) (target source size block : UInt64) :
    Action.Keeps (fun machine : SimMachine => P machine.isParked)
      (Image.copy target source size block) := by
  refine Image.keeps_copy ?_
  intro blockTarget blockSource chunk machine _ h
  have hcopied := copy_cases blockTarget blockSource chunk machine
  show P (SimMachine.copy blockTarget blockSource chunk machine).2.isParked
  generalize SimMachine.copy blockTarget blockSource chunk machine = reply at hcopied ⊢
  cases hcopied <;> exact h

/-! ## The history -/

/-- `machine` has gone on from `start` by events that all have `Q`. -/
def GoneOn (start : SimMachine) (Q : SimEvent → Prop) (machine : SimMachine) : Prop :=
  ∃ events, machine.events = start.events ++ events ∧ ∀ event ∈ events, Q event

variable {start : SimMachine} {Q : SimEvent → Prop}

theorem goneOn_refl : start.GoneOn Q start :=
  ⟨[], by simp, by simp⟩

theorem GoneOn.of_eq {machine next : SimMachine} (h : start.GoneOn Q machine)
    (hevents : next.events = machine.events) : start.GoneOn Q next := by
  obtain ⟨events, hmachine, hall⟩ := h
  exact ⟨events, hevents.trans hmachine, hall⟩

theorem GoneOn.append {machine next : SimMachine} (h : start.GoneOn Q machine)
    {event : SimEvent} (hevents : next.events = machine.events ++ [event]) (hevent : Q event) :
    start.GoneOn Q next := by
  obtain ⟨events, hmachine, hall⟩ := h
  refine ⟨events ++ [event], ?_, ?_⟩
  · rw [hevents, hmachine, List.append_assoc]
  · intro other hother
    rcases List.mem_append.1 hother with hother | hother
    · exact hall other hother
    · rw [List.mem_singleton] at hother
      rw [hother]
      exact hevent

theorem stable_goneOn {cores : CoreRange} {signal : Signal}
    (h : ∀ core ∈ cores.toList, Q (.signal core signal) ∧ Q (.ack core signal)) :
    Barrier.Stable (start.GoneOn Q) cores signal where
  signalled := fun hcore hsignal hgone =>
    hgone.append (events_of_signalCore hsignal) (h _ hcore).1
  asked := by
    intro core machine hcore hgone
    have hevents := events_acknowledged core signal machine
    by_cases hanswer : (machine.core core).answer signal = .now
    · rw [if_pos hanswer] at hevents
      exact hgone.append hevents (h core hcore).2
    · rw [if_neg hanswer, List.append_nil] at hevents
      exact hgone.of_eq hevents
  timed := by
    intro machine time next hclock hgone
    obtain ⟨-, rfl⟩ := now_eq_some.1 hclock
    exact hgone

theorem keeps_goneOn_copy {target source size : UInt64} (block : UInt64)
    (h : ∀ {blockTarget blockSource chunk},
      Image.IsBlock target source size blockTarget blockSource chunk →
        Q (.copy blockTarget blockSource chunk)) :
    Action.Keeps (start.GoneOn Q) (Image.copy target source size block) := by
  refine Image.keeps_copy ?_
  intro blockTarget blockSource chunk machine hblock hgone
  have hcopied := copy_cases blockTarget blockSource chunk machine
  show start.GoneOn Q (SimMachine.copy blockTarget blockSource chunk machine).2
  generalize SimMachine.copy blockTarget blockSource chunk machine = reply at hcopied ⊢
  cases hcopied with
  | failed => exact hgone
  | done =>
    refine hgone.append ?_ (h hblock)
    exact List.reverse_cons

end SimMachine
end CellVisor
