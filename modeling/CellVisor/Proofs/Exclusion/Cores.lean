import CellVisor.Proofs.Barrier.Answers
import CellVisor.Proofs.Cpu.Split
import CellVisor.Proofs.Operation
import CellVisor.Proofs.Sim.Kept

/-!
# CellVisor.Proofs.Exclusion.Cores

At no moment of an operation does a core of each cell execute. A core is parked, or goes on, only
when it acknowledges a signal, so the events of an operation tell where every core is at every
moment.

* `SimEvent.park`: where the cores are after an event.
* `Watched`: the events since `start` lead to where the cores are, and at every moment between
  they were as `Q` says.
* `guarded_hibernate`, `guarded_resume`: while the cores of one cell are parked, a step of the other
  cell leaves them so, and no core of each executes at any moment of it.
-/

namespace CellVisor

open SimMachine

/-! ## Moments -/

namespace SimEvent

/-- Which cores are parked after an event. -/
def park (parked : UInt32 → Bool) : SimEvent → UInt32 → Bool
  | ack core sent => fun other => if other = core then decide (sent = .freeze) else parked other
  | _ => parked

end SimEvent

/-- A question is either answered now, which is recorded and parks the core or lets it go on, or it
changes neither the events nor where any core is. -/
theorem recorded_acknowledged (core : UInt32) (signal : Signal) (machine : SimMachine) :
    ((acknowledged core signal machine).2.events = machine.events ++ [.ack core signal] ∧
      (acknowledged core signal machine).2.isParked =
        SimEvent.park machine.isParked (.ack core signal)) ∨
      ((acknowledged core signal machine).2.events = machine.events ∧
        (acknowledged core signal machine).2.isParked = machine.isParked) := by
  have hparked := isParked_acknowledged core signal machine
  rw [events_acknowledged]
  by_cases hanswer : (machine.core core).answer signal = .now
  · refine .inl ⟨by rw [if_pos hanswer], funext fun other => ?_⟩
    simp [hparked, hanswer, SimEvent.park]
  · refine .inr ⟨by rw [if_neg hanswer, List.append_nil], funext fun other => ?_⟩
    simp [hparked, hanswer]

/-- The events since `start` lead to the cores that are parked now, and after any first part of
them the cores that were parked had `Q`. -/
def Watched (Q : (UInt32 → Bool) → Prop) (start machine : SimMachine) : Prop :=
  ∃ events, machine.events = start.events ++ events ∧
    machine.isParked = events.foldl SimEvent.park start.isParked ∧
    ∀ seen, seen <+: events → Q (seen.foldl SimEvent.park start.isParked)

section Watched

variable {Q : (UInt32 → Bool) → Prop} {start machine next : SimMachine}

theorem watched_refl (h : Q start.isParked) : Watched Q start start := by
  refine ⟨[], by simp, rfl, ?_⟩
  intro seen hseen
  rw [List.prefix_nil.1 hseen]
  exact h

theorem Watched.of_eq (h : Watched Q start machine) (hevents : next.events = machine.events)
    (hparked : next.isParked = machine.isParked) : Watched Q start next := by
  obtain ⟨events, hmachine, hleads, halways⟩ := h
  exact ⟨events, hevents.trans hmachine, hparked.trans hleads, halways⟩

theorem Watched.append (h : Watched Q start machine) {event : SimEvent}
    (hevents : next.events = machine.events ++ [event])
    (hparked : next.isParked = event.park machine.isParked) (hnext : Q next.isParked) :
    Watched Q start next := by
  obtain ⟨events, hmachine, hleads, halways⟩ := h
  have hfold : next.isParked = (events ++ [event]).foldl SimEvent.park start.isParked := by
    rw [List.foldl_append, ← hleads, hparked]
    rfl
  refine ⟨events ++ [event], ?_, hfold, ?_⟩
  · rw [hevents, hmachine, List.append_assoc]
  · intro seen hseen
    rcases List.prefix_concat_iff.1 hseen with rfl | hearlier
    · rw [← hfold]
      exact hnext
    · exact halways seen hearlier

end Watched

/-! ## Guarded steps -/

def AllParked (cores : CoreRange) (parked : UInt32 → Bool) : Prop :=
  ∀ core, cores.contains core = true → parked core = true

/-- The machine was watched since `start`, and now every core of `guard` is parked. -/
def Guarded (Q : (UInt32 → Bool) → Prop) (guard : CoreRange) (start machine : SimMachine) : Prop :=
  Watched Q start machine ∧ AllParked guard machine.isParked

section Guarded

variable {Q : (UInt32 → Bool) → Prop} {guard cores : CoreRange} {start : SimMachine}

/-- Where the parked cores of `guard` alone ensure `Q`, and no core of `cores` is among them, a
rendezvous with `cores` keeps both. -/
theorem stable_guarded (hguard : ∀ parked, AllParked guard parked → Q parked)
    (hapart : ∀ core, cores.contains core = true → guard.contains core = false)
    (signal : Signal) : Barrier.Stable (Guarded Q guard start) cores signal where
  signalled := by
    rintro core machine next - hsignal ⟨hwatched, hparked⟩
    have hsame := isParked_of_signalCore hsignal
    have hnext : AllParked guard next.isParked := by
      rw [hsame]
      exact hparked
    exact ⟨hwatched.append (events_of_signalCore hsignal) hsame (hguard _ hnext), hnext⟩
  asked := by
    rintro core machine hcore ⟨hwatched, hparked⟩
    -- the core that is asked is not one of the guard, so those stay parked whatever it answers
    have houtside := hapart core ((CoreRange.mem_toList cores core).1 hcore)
    have hnext : AllParked guard (acknowledged core signal machine).2.isParked := by
      intro other hother
      rw [isParked_acknowledged, if_neg]
      · exact hparked other hother
      · rintro ⟨rfl, -⟩
        rw [hother] at houtside
        cases houtside
    refine ⟨?_, hnext⟩
    rcases recorded_acknowledged core signal machine with ⟨hevents, hmoved⟩ | ⟨hevents, hsame⟩
    · exact hwatched.append hevents hmoved (hguard _ hnext)
    · exact hwatched.of_eq hevents hsame
  timed := by
    rintro machine time next hclock hguarded
    obtain ⟨-, rfl⟩ := now_eq_some.1 hclock
    exact hguarded

theorem keeps_guarded_copy (hguard : ∀ parked, AllParked guard parked → Q parked)
    (target source size block : UInt64) :
    Action.Keeps (Guarded Q guard start) (Image.copy target source size block) := by
  refine Image.keeps_copy ?_
  rintro blockTarget blockSource chunk machine - ⟨hwatched, hparked⟩
  have hcopied := SimMachine.copy_cases blockTarget blockSource chunk machine
  show Guarded Q guard start (SimMachine.copy blockTarget blockSource chunk machine).2
  generalize SimMachine.copy blockTarget blockSource chunk machine = reply at hcopied ⊢
  cases hcopied with
  | failed => exact ⟨hwatched, hparked⟩
  | done => exact ⟨hwatched.append List.reverse_cons rfl (hguard _ hparked), hparked⟩

theorem Guarded.setContext {machine : SimMachine} (h : Guarded Q guard start machine)
    (core : UInt32) (context : Context) :
    Guarded Q guard start (machine.setContext core context) := by
  have hsame := isParked_setContext machine core context
  refine ⟨h.1.of_eq (events_setContext machine core context) hsame, ?_⟩
  rw [hsame]
  exact h.2

end Guarded

/-! ## Operations -/

/-- No core of each of the two cells goes on at once. -/
def Exclusive (topology : Topology) (parked : UInt32 → Bool) : Prop :=
  ¬ ∃ first second, (topology.ranges.get .linux).contains first = true ∧
    (topology.ranges.get .windows).contains second = true ∧
    parked first = false ∧ parked second = false

theorem exclusive_of_allParked (topology : Topology) (id : CellId) (parked : UInt32 → Bool)
    (h : AllParked (topology.ranges.get id) parked) : Exclusive topology parked := by
  rintro ⟨first, second, hfirst, hsecond, hfirstRuns, hsecondRuns⟩
  cases id with
  | linux =>
    rw [h first hfirst] at hfirstRuns
    cases hfirstRuns
  | windows =>
    rw [h second hsecond] at hsecondRuns
    cases hsecondRuns

section Operations

variable {config : Config} {topology : Topology} {host : Host SimMachine}

theorem guarded_hibernate (start : SimMachine) (hsplit : topology.IsSplit)
    (hlaid : host.cells.Laid config topology) (id : CellId)
    (h : Guarded (Exclusive topology) (topology.ranges.get id.other) start host.machine) :
    Guarded (Exclusive topology) (topology.ranges.get id.other) start
      (Host.hibernate id host).state.machine := by
  have hguard := exclusive_of_allParked topology id.other
  refine Host.kept_hibernate ?_ (keeps_guarded_copy hguard _ _ _ _) h
  rw [hlaid.cores]
  exact stable_guarded hguard (hsplit.disjoint id) .freeze

theorem guarded_resume (start : SimMachine) (hsplit : topology.IsSplit)
    (hlaid : host.cells.Laid config topology) (id : CellId)
    (h : Guarded (Exclusive topology) (topology.ranges.get id.other) start host.machine) :
    Guarded (Exclusive topology) (topology.ranges.get id.other) start
      (Host.resume id host).state.machine := by
  have hguard := exclusive_of_allParked topology id.other
  refine Host.kept_resume ?_ (keeps_guarded_copy hguard _ _ _ _) (fun h => h.setContext _ _) h
  rw [hlaid.cores]
  exact stable_guarded hguard (hsplit.disjoint id) .thaw

theorem allParked_of_call {cells : Cells} {id : CellId} {machine after : SimMachine}
    {log : List Notice} (h : cells.call id .freeze machine = ⟨.ok (), after, log⟩) :
    AllParked (cells.get id).cores after.isParked := by
  intro core hcore
  have hcall : cells.barrier.rendezvous (cells.get id).cores .freeze machine =
      ⟨.ok (), after, log⟩ := h
  have hparked := Barrier.isParked_of_rendezvous (congrArg Reply.outcome hcall) hcore
  rw [hcall] at hparked
  exact hparked

theorem allParked_of_hibernate (hlaid : host.cells.Laid config topology) (id : CellId)
    (h : (Host.hibernate id host).outcome = .ok ()) :
    AllParked (topology.ranges.get id) (Host.hibernate id host).state.machine.isParked := by
  have hcases := Host.hibernate_cases id host
  generalize Host.hibernate id host = reply at hcases h ⊢
  cases hcases with
  | refused | freezeHalted | unfrozen | crowded | copyHalted | uncopied => cases h
  | hibernated _ freeze _ copy =>
    have hparked := allParked_of_call freeze
    rw [hlaid.cores] at hparked
    exact (keeps_isParked_copy (AllParked (topology.ranges.get id)) _ _ _ _).of_eq hparked copy

end Operations
end CellVisor
