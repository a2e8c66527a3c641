import CellVisor.Proofs.Cell.Steps
import CellVisor.Switch.Coordinator

/-!
# CellVisor.Proofs.Switch.Handover

The switch between the cells on any machine: how it can go.

* `switch_cases`: a switch is refused, or it ends in the hibernation of the active cell or in the
  resumption of the other, or it completes, or a word runs out at its end.
* `kept_switch`: what both steps keep of the host, a switch keeps.
-/

namespace CellVisor
namespace SharedHost

variable {M : Type}

/-- The shared host with another host, whose status is published. -/
def publishing (shared : SharedHost M) (host : Host M) : SharedHost M :=
  { host, coordinator := shared.coordinator.publish host.cells }

/-- The shared host after a completed switch to `next` at the time `now`. -/
def completing (shared : SharedHost M) (next : CellId) (now switches : UInt64) (host : Host M) :
    SharedHost M :=
  publishing
    { shared with
      coordinator := { shared.coordinator with active := next, switches, lastSwitch := some now } }
    host

/-- The active cell runs, and the other is hibernated and owns cores. -/
structure Open (shared : SharedHost M) : Prop where
  running : shared.host.cells.state shared.coordinator.active = .running
  hibernated : shared.host.cells.state shared.coordinator.active.other = .hibernated
  owned : (shared.host.cells.get shared.coordinator.active.other).cores.isEmpty = false

theorem onHost_apply {α : Type} {action : Action (Host M) α} {shared : SharedHost M}
    {outcome : Outcome α} {host : Host M} {log : List Notice}
    (h : action shared.host = ⟨outcome, host, log⟩) :
    onHost action shared = ⟨outcome, { shared with host }, log⟩ := by
  rw [onHost, Action.zoom_apply, h]

theorem publish_apply (shared : SharedHost M) (host : Host M) :
    publish { shared with host } = ⟨.ok (), shared.publishing host, []⟩ := rfl

variable [Machine M]

inductive Handover (shared : SharedHost M) : Reply (SharedHost M) CellId → Prop where
  | refused (closed : shared.host.cells.state shared.coordinator.active ≠ .running ∨
        shared.host.cells.state shared.coordinator.active.other ≠ .hibernated) :
      Handover shared
        ⟨.error .invalidState, shared,
          [.switchRefused shared.coordinator.active
            (shared.host.cells.state shared.coordinator.active)
            (shared.host.cells.state shared.coordinator.active.other)]⟩
  | targetless (running : shared.host.cells.state shared.coordinator.active = .running)
      (hibernated : shared.host.cells.state shared.coordinator.active.other = .hibernated)
      (empty : (shared.host.cells.get shared.coordinator.active.other).cores.isEmpty = true) :
      Handover shared ⟨.error (.config .targetOwnsNoCores), shared, []⟩
  | hibernateHalted {fault : Fault} {host : Host M} {log : List Notice} (ready : shared.Open)
      (hibernate : Host.hibernate shared.coordinator.active shared.host =
        ⟨.fault fault, host, log⟩) :
      Handover shared
        ⟨.fault fault, { shared with host },
          .switching shared.coordinator.active shared.coordinator.active.other :: log⟩
  | aborted {error : Error} {host : Host M} {log : List Notice} (ready : shared.Open)
      (hibernate : Host.hibernate shared.coordinator.active shared.host =
        ⟨.error error, host, log⟩) :
      Handover shared
        ⟨.error error, shared.publishing host,
          .switching shared.coordinator.active shared.coordinator.active.other ::
            (log ++ [.switchAborted shared.coordinator.active.other error])⟩
  | resumeHalted {fault : Fault} {between host : Host M} {log resumeLog : List Notice}
      (ready : shared.Open)
      (hibernate : Host.hibernate shared.coordinator.active shared.host = ⟨.ok (), between, log⟩)
      (resume : Host.resume shared.coordinator.active.other between =
        ⟨.fault fault, host, resumeLog⟩) :
      Handover shared
        ⟨.fault fault, { shared.publishing between with host },
          .switching shared.coordinator.active shared.coordinator.active.other ::
            (log ++ resumeLog)⟩
  | failed {error : Error} {between host : Host M} {log resumeLog : List Notice}
      (ready : shared.Open)
      (hibernate : Host.hibernate shared.coordinator.active shared.host = ⟨.ok (), between, log⟩)
      (resume : Host.resume shared.coordinator.active.other between =
        ⟨.error error, host, resumeLog⟩) :
      Handover shared
        ⟨.error error, (shared.publishing between).publishing host,
          .switching shared.coordinator.active shared.coordinator.active.other ::
            (log ++ (resumeLog ++ [.switchFailed error]))⟩
  | uncounted {between host : Host M} {log resumeLog : List Notice} (ready : shared.Open)
      (hibernate : Host.hibernate shared.coordinator.active shared.host = ⟨.ok (), between, log⟩)
      (resume : Host.resume shared.coordinator.active.other between =
        ⟨.ok (), host, resumeLog⟩)
      (count : Word.add? shared.coordinator.switches 1 = none) :
      Handover shared
        ⟨.fault .overflow, { shared.publishing between with host },
          .switching shared.coordinator.active shared.coordinator.active.other ::
            (log ++ resumeLog)⟩
  | clockless {between host : Host M} {log resumeLog : List Notice} {switches : UInt64}
      (ready : shared.Open)
      (hibernate : Host.hibernate shared.coordinator.active shared.host = ⟨.ok (), between, log⟩)
      (resume : Host.resume shared.coordinator.active.other between =
        ⟨.ok (), host, resumeLog⟩)
      (count : Word.add? shared.coordinator.switches 1 = some switches)
      (clock : Machine.now host.machine = none) :
      Handover shared
        ⟨.fault .overflow, { shared.publishing between with host },
          .switching shared.coordinator.active shared.coordinator.active.other ::
            (log ++ resumeLog)⟩
  | completed {between host : Host M} {log resumeLog : List Notice} {switches now : UInt64}
      {timed : M} (ready : shared.Open)
      (hibernate : Host.hibernate shared.coordinator.active shared.host = ⟨.ok (), between, log⟩)
      (resume : Host.resume shared.coordinator.active.other between =
        ⟨.ok (), host, resumeLog⟩)
      (count : Word.add? shared.coordinator.switches 1 = some switches)
      (clock : Machine.now host.machine = some (now, timed)) :
      Handover shared
        ⟨.ok shared.coordinator.active.other,
          (shared.publishing between).completing shared.coordinator.active.other now switches
            { host with machine := timed },
          .switching shared.coordinator.active shared.coordinator.active.other ::
            (log ++ (resumeLog ++
              [.switchCompleted switches shared.coordinator.active.other]))⟩

def complete (next : CellId) (switches : UInt64) : Action (SharedHost M) CellId := do
  let switches ← Action.word (Word.add? switches 1)
  let now ← onHost (Host.onMachine (Action.ofReading Machine.now))
  activate next now switches
  publish
  Action.note (.switchCompleted switches next)
  pure next

section Complete

variable {shared : SharedHost M} {next : CellId} {count switches : UInt64}

theorem complete_of_uncounted (h : Word.add? count 1 = none) :
    complete next count shared = ⟨.fault .overflow, shared, []⟩ := by
  unfold complete
  rw [h]
  rfl

theorem complete_of_clockless (h : Word.add? count 1 = some switches)
    (clock : Machine.now shared.host.machine = none) :
    complete next count shared = ⟨.fault .overflow, shared, []⟩ := by
  have hreading : Host.onMachine (Action.ofReading Machine.now) shared.host =
      ⟨.fault .overflow, shared.host, []⟩ :=
    Host.onMachine_apply (by rw [Action.ofReading, clock])
  unfold complete
  rw [h, Action.word, Action.bind_of_ok (Action.pure_apply switches shared),
    Action.bind_of_fault (onHost_apply hreading), Reply.after_nil]

theorem complete_of_timed {now : UInt64} {timed : M} (h : Word.add? count 1 = some switches)
    (clock : Machine.now shared.host.machine = some (now, timed)) :
    complete next count shared =
      ⟨.ok next, shared.completing next now switches { shared.host with machine := timed },
        [.switchCompleted switches next]⟩ := by
  have hreading : Host.onMachine (Action.ofReading Machine.now) shared.host =
      ⟨.ok now, { shared.host with machine := timed }, []⟩ :=
    Host.onMachine_apply (by rw [Action.ofReading, clock])
  unfold complete
  rw [h, Action.word, Action.bind_of_ok (Action.pure_apply switches shared),
    Action.bind_of_ok (onHost_apply hreading)]
  rfl

end Complete

theorem switch_cases (shared : SharedHost M) : Handover shared (switch shared) := by
  unfold switch
  rw [Action.bind_of_ok (Action.get_apply shared), Reply.after_nil]
  dsimp only
  split
  · rename_i closed
    exact .refused closed
  rename_i closed
  obtain ⟨running, hibernated⟩ := not_or.1 closed
  rw [Decidable.not_not] at running hibernated
  split
  · rename_i empty
    exact .targetless running hibernated empty
  rename_i owned
  have ready : shared.Open := ⟨running, hibernated, Bool.eq_false_iff.2 owned⟩
  rw [Action.note_bind]
  cases hibernate : Host.hibernate shared.coordinator.active shared.host with
  | mk outcome between log =>
    have hhibernate := onHost_apply hibernate
    cases outcome with
    | fault fault =>
      rw [Action.bind_of_fault (Action.attempt_of_fault hhibernate)]
      exact .hibernateHalted ready hibernate
    | error error =>
      rw [Action.bind_of_ok (Action.attempt_of_error hhibernate),
        Action.bind_of_ok (publish_apply shared between), Reply.after_nil]
      exact .aborted ready hibernate
    | ok =>
      rw [Action.bind_of_ok (Action.attempt_of_ok hhibernate),
        Action.bind_of_ok (publish_apply shared between), Reply.after_nil]
      dsimp only
      cases resume : Host.resume shared.coordinator.active.other between with
      | mk outcome host resumeLog =>
        have hresume : onHost (Host.resume shared.coordinator.active.other)
            (shared.publishing between) =
            ⟨outcome, { shared.publishing between with host }, resumeLog⟩ := onHost_apply resume
        cases outcome with
        | fault fault =>
          rw [Action.bind_of_fault (Action.attempt_of_fault hresume)]
          simp only [Reply.after_mk, List.cons_append, List.nil_append]
          exact .resumeHalted ready hibernate resume
        | error error =>
          rw [Action.bind_of_ok (Action.attempt_of_error hresume)]
          exact .failed ready hibernate resume
        | ok =>
          rw [Action.bind_of_ok (Action.attempt_of_ok hresume)]
          -- what is left of the switch is `complete`
          show Handover shared (Reply.after (Reply.after (Reply.after (complete
            shared.coordinator.active.other shared.coordinator.switches
            { shared.publishing between with host }) _) _) _)
          cases count : Word.add? shared.coordinator.switches 1 with
          | none =>
            rw [complete_of_uncounted count]
            simp only [Reply.after_mk, List.cons_append, List.nil_append, List.append_nil]
            exact .uncounted ready hibernate resume count
          | some switches =>
            cases clock : Machine.now host.machine with
            | none =>
              rw [complete_of_clockless count clock]
              simp only [Reply.after_mk, List.cons_append, List.nil_append, List.append_nil]
              exact .clockless ready hibernate resume count clock
            | some reading =>
              obtain ⟨now, timed⟩ := reading
              rw [complete_of_timed count clock]
              exact .completed ready hibernate resume count clock

/-- What a hibernation, a resumption and a reading of the clock keep of the host, a switch keeps. -/
theorem kept_switch {P : Host M → Prop} (hibernates : ∀ id, Action.Keeps P (Host.hibernate id))
    (resumes : ∀ id, Action.Keeps P (Host.resume id))
    (timed : ∀ {host now next}, Machine.now host.machine = some (now, next) → P host →
      P { host with machine := next })
    {shared : SharedHost M} (h : P shared.host) : P (switch shared).state.host := by
  have hcases := switch_cases shared
  generalize switch shared = reply at hcases ⊢
  cases hcases with
  | refused | targetless => exact h
  | hibernateHalted _ hibernate | aborted _ hibernate =>
    exact (hibernates _).of_eq h hibernate
  | resumeHalted _ hibernate resume | failed _ hibernate resume
  | uncounted _ hibernate resume | clockless _ hibernate resume =>
    exact (resumes _).of_eq ((hibernates _).of_eq h hibernate) resume
  | completed _ hibernate resume _ clock =>
    exact timed clock ((resumes _).of_eq ((hibernates _).of_eq h hibernate) resume)

end SharedHost
end CellVisor
