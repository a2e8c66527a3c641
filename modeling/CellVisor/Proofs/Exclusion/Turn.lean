import CellVisor.Proofs.Exclusion.Cores
import CellVisor.Proofs.Exclusion.States

/-!
# CellVisor.Proofs.Exclusion.Turn

The invariant by which the two cells take turns: either the active cell runs, and the other one does
not and its cores are parked, or the active cell does not run and the cores of one of the two are
parked. It outlasts every failure and every halt in the middle of a switch.

* `secured_switch`: a switch keeps the invariant, and lets no core of each cell execute at any
  moment of it.
-/

namespace CellVisor

open SimMachine

namespace SharedHost

/-- Whose turn it is. -/
inductive Turn (topology : Topology) (shared : SharedHost SimMachine) : Prop where
  | active (running : shared.host.cells.state shared.coordinator.active = .running)
      (other : shared.host.cells.state shared.coordinator.active.other ≠ .running)
      (parked : AllParked (topology.ranges.get shared.coordinator.active.other)
        shared.host.machine.isParked)
  | nobody (idle : shared.host.cells.state shared.coordinator.active ≠ .running) (id : CellId)
      (parked : AllParked (topology.ranges.get id) shared.host.machine.isParked)

/-- What holds between the calls, and held at every moment since `start`. -/
structure Secured (config : Config) (topology : Topology) (start : SimMachine)
    (shared : SharedHost SimMachine) : Prop where
  laid : shared.host.cells.Laid config topology
  watched : Watched (Exclusive topology) start shared.host.machine
  turn : Turn topology shared

section Turn

variable {config : Config} {topology : Topology} {start : SimMachine}
  {shared : SharedHost SimMachine}

theorem Turn.not_bothRun (h : Turn topology shared) : ¬ BothRun shared.host.cells.states := by
  rintro ⟨hlinux, hwindows⟩
  have hrun : ∀ id, shared.host.cells.state id = .running := by
    intro id
    cases id with
    | linux => exact hlinux
    | windows => exact hwindows
  cases h with
  | active _ other => exact other (hrun _)
  | nobody idle => exact idle (hrun _)

/-- With the cores of the other cell parked, and that cell not running, it is the turn of the active
cell or of none. -/
theorem turn_of_parked_other
    (hother : shared.host.cells.state shared.coordinator.active.other ≠ .running)
    (hparked : AllParked (topology.ranges.get shared.coordinator.active.other)
      shared.host.machine.isParked) : Turn topology shared := by
  by_cases running : shared.host.cells.state shared.coordinator.active = .running
  · exact .active running hother hparked
  · exact .nobody running _ hparked

theorem Secured.guarded (h : Secured config topology start shared) (ready : shared.Open) :
    Guarded (Exclusive topology) (topology.ranges.get shared.coordinator.active.other) start
      shared.host.machine := by
  refine ⟨h.watched, ?_⟩
  cases h.turn with
  | active _ _ parked => exact parked
  | nobody idle => exact absurd ready.running idle

theorem secured_of_first (hsplit : topology.IsSplit) (h : Secured config topology start shared)
    (ready : shared.Open) {outcome : Outcome Unit} {host : Host SimMachine} {log : List Notice}
    (hibernate : Host.hibernate shared.coordinator.active shared.host = ⟨outcome, host, log⟩)
    {after : SharedHost SimMachine} (hhost : after.host = host)
    (hactive : after.coordinator.active = shared.coordinator.active) :
    Secured config topology start after := by
  have hguarded := guarded_hibernate start hsplit h.laid shared.coordinator.active (h.guarded ready)
  have hblank := Host.blank_hibernate shared.coordinator.active shared.host
  have hother := Host.get_other_hibernate shared.coordinator.active shared.host
  rw [hibernate] at hguarded hblank hother
  dsimp only at hguarded hblank hother
  rw [← hhost] at hguarded hblank hother
  rw [← hactive] at hguarded hother
  refine ⟨h.laid.of_blank_eq hblank, hguarded.1, turn_of_parked_other ?_ hguarded.2⟩
  rw [Cells.state, hother, hactive]
  have hibernated := ready.hibernated
  rw [Cells.state] at hibernated
  rw [hibernated]
  simp

/-- After the first step of a switch, the second one leaves the cores of the first cell parked. -/
theorem secured_of_second (hsplit : topology.IsSplit) (h : Secured config topology start shared)
    (ready : shared.Open) {outcome : Outcome Unit} {between host : Host SimMachine}
    {log resumeLog : List Notice}
    (hibernate : Host.hibernate shared.coordinator.active shared.host = ⟨.ok (), between, log⟩)
    (resume : Host.resume shared.coordinator.active.other between = ⟨outcome, host, resumeLog⟩) :
    host.cells.Laid config topology ∧
      Guarded (Exclusive topology) (topology.ranges.get shared.coordinator.active) start
        host.machine ∧
      host.cells.state shared.coordinator.active = .hibernated := by
  have hfirst := guarded_hibernate start hsplit h.laid shared.coordinator.active (h.guarded ready)
  have hblank := Host.blank_hibernate shared.coordinator.active shared.host
  have hparked := allParked_of_hibernate h.laid shared.coordinator.active
    (congrArg Reply.outcome hibernate)
  rw [hibernate] at hfirst hblank hparked
  have hlaid := h.laid.of_blank_eq hblank
  -- from here on the cores of the first cell are the ones that stay parked
  have hother := CellId.other_other shared.coordinator.active
  have hsecond := guarded_resume start hsplit hlaid shared.coordinator.active.other
  have hblank' := Host.blank_resume shared.coordinator.active.other between
  rw [resume] at hblank' hsecond
  rw [hother] at hsecond
  exact ⟨hlaid.of_blank_eq hblank', hsecond ⟨hfirst.1, hparked⟩,
    Host.hibernated_of_resume_other hibernate resume⟩

theorem secured_switch (hsplit : topology.IsSplit) (h : Secured config topology start shared) :
    Secured config topology start (switch shared).state := by
  have hcases := switch_cases shared
  generalize switch shared = reply at hcases ⊢
  cases hcases with
  | refused | targetless => exact h
  | hibernateHalted ready hibernate | aborted ready hibernate =>
    exact secured_of_first hsplit h ready hibernate rfl rfl
  | resumeHalted ready hibernate resume | failed ready hibernate resume
  | uncounted ready hibernate resume | clockless ready hibernate resume =>
    obtain ⟨hlaid, hguarded, hslept⟩ := secured_of_second hsplit h ready hibernate resume
    refine ⟨hlaid, hguarded.1, .nobody ?_ _ hguarded.2⟩
    intro running
    cases hslept.symm.trans running
  | completed ready hibernate resume _ clock =>
    obtain ⟨hlaid, hguarded, hslept⟩ := secured_of_second hsplit h ready hibernate resume
    have hwoke := Host.state_of_resume_ok resume
    obtain ⟨-, rfl⟩ := now_eq_some.1 clock
    refine ⟨hlaid, hguarded.1, .active hwoke ?_ ?_⟩
    · show Cells.state _ shared.coordinator.active.other.other ≠ _
      rw [CellId.other_other]
      intro running
      cases hslept.symm.trans running
    · show AllParked (topology.ranges.get shared.coordinator.active.other.other) _
      rw [CellId.other_other]
      exact hguarded.2

/-- What is done to the machine from outside parks no core and lets none go. -/
theorem Secured.disturbed (h : Secured config topology start shared)
    (disturbance : Sim.Disturbance) :
    Secured config topology start
      { shared with
        host := { shared.host with machine := disturbance.apply shared.host.machine } } := by
  have hparked := Sim.Disturbance.isParked_apply disturbance shared.host.machine
  refine ⟨h.laid, h.watched.of_eq (Sim.Disturbance.events_apply _ _) hparked, ?_⟩
  cases h.turn with
  | active running other parked =>
    refine .active running other ?_
    rw [hparked]
    exact parked
  | nobody idle id parked =>
    refine .nobody idle id ?_
    rw [hparked]
    exact parked

end Turn
end SharedHost
end CellVisor
