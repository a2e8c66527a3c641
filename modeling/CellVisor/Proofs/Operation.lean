import CellVisor.Proofs.Cell.Frame
import CellVisor.Proofs.Sim.Primitives
import CellVisor.Proofs.Switch.Handover

/-!
# CellVisor.Proofs.Operation

What is done to a simulated machine, to its cells and to a host of them, from outside. A run is a
list of operations, taken by `Action.attemptEach`: an error of one does not keep the next from
being taken, a halt does.

* `Sim.Disturbance`: changes to the machine that no component makes.
* `Host.Operation`, `SharedHost.Operation`: the calls, and disturbances between them.
* `laid_of_run`: whatever is done, the cells stay where they are laid out.
* `keeps_error`: whatever is done, a cell that is out of order stays so.
-/

namespace CellVisor

namespace Sim

/-- A change made to the machine from outside. -/
inductive Disturbance
  | respond (core : UInt32) (responsive : Bool)
  /-- A core will leave so many questions unanswered after each signal. -/
  | delay (core : UInt32) (polls : Nat)
  /-- So many copies will succeed and every later one fail. -/
  | failCopies (count : Nat)
  | live (core : UInt32) (context : Context)
  | write (address : UInt64) (byte : UInt8)
  deriving Repr, DecidableEq

namespace Disturbance

def apply : Disturbance → SimMachine → SimMachine
  | respond core responsive => SimMachine.setResponsive core responsive
  | delay core polls => SimMachine.delayAcks core polls
  | failCopies count => SimMachine.failCopiesAfter count
  | live core context => SimMachine.setContext core context
  | write address byte => SimMachine.writeByte address byte

@[simp] theorem events_apply (disturbance : Disturbance) (machine : SimMachine) :
    (disturbance.apply machine).events = machine.events := by
  cases disturbance <;> rfl

@[simp] theorem isParked_apply (disturbance : Disturbance) (machine : SimMachine) :
    (disturbance.apply machine).isParked = machine.isParked := by
  cases disturbance with
  | respond | delay | live => exact SimMachine.isParked_modifyCore fun _ => rfl
  | failCopies | write => rfl

@[simp] theorem clock_apply (disturbance : Disturbance) (machine : SimMachine) :
    (disturbance.apply machine).clock = machine.clock := by
  cases disturbance <;> rfl

theorem byteAt_apply {disturbance : Disturbance} {machine : SimMachine} {address : UInt64}
    (h : ∀ byte, disturbance ≠ .write address byte) :
    (disturbance.apply machine).memory.byteAt address = machine.memory.byteAt address := by
  cases disturbance with
  | respond | delay | failCopies | live => rfl
  | write written byte =>
    show (machine.memory.write written byte).byteAt address = _
    rw [Physical.byteAt_write, if_neg]
    rintro rfl
    exact h byte rfl

end Disturbance
end Sim

def Topology.halved : Topology where
  total := 4
  source := .extendedTopology
  ranges := ⟨⟨0, 2⟩, ⟨2, 4⟩⟩

theorem validate_compact : Config.compact.validate = .ok () := rfl

namespace Host

def compact : Host SimMachine := ⟨.ofCores 4, .fresh .compact .halved⟩

/-- An operation on the cells of a simulated machine. -/
inductive Operation
  | boot
  | hibernate (id : CellId)
  | resume (id : CellId)
  | fail (id : CellId)
  | disturb (disturbance : Sim.Disturbance)
  deriving Repr, DecidableEq

namespace Operation

def act : Operation → Action (Host SimMachine) Unit
  | boot => Host.boot
  | hibernate id => Host.hibernate id
  | resume id => Host.resume id
  | fail id => markFailed id
  | disturb disturbance => onMachine (Action.update disturbance.apply)

def run (operations : List Operation) (host : Host SimMachine) : Host SimMachine :=
  (Action.attemptEach act operations host).state

theorem run_cons (operation : Operation) (host : Host SimMachine) :
    (∀ rest, run (operation :: rest) host = (operation.act host).state) ∨
      ∀ rest, run (operation :: rest) host = run rest (operation.act host).state := by
  unfold run
  rcases Action.attemptEach_cons act operation host with ⟨fault, hstop⟩ | hgo
  · refine .inl fun rest => ?_
    rw [hstop]
  · refine .inr fun rest => ?_
    rw [hgo, Reply.state_after]

theorem blank_act (operation : Operation) (host : Host SimMachine) :
    (operation.act host).state.cells.blank = host.cells.blank := by
  cases operation with
  | boot => exact blank_boot host
  | hibernate id => exact blank_hibernate id host
  | resume id => exact blank_resume id host
  | fail id => exact blank_markFailed id host
  | disturb disturbance => rfl

theorem keeps_laid (config : Config) (topology : Topology) (operation : Operation) :
    Action.Keeps (fun host => host.cells.Laid config topology) operation.act :=
  fun host h => h.of_blank_eq (operation.blank_act host)

theorem laid_of_run (config : Config) (topology : Topology) (machine : SimMachine)
    (operations : List Operation) :
    (run operations ⟨machine, .fresh config topology⟩).cells.Laid config topology :=
  Action.keeps_attemptEach (keeps_laid config topology) operations _
    (Cells.laid_fresh config topology)

theorem keeps_error (id : CellId) (operation : Operation) :
    Action.Keeps (fun host => host.cells.state id = .error) operation.act := by
  intro host h
  cases operation with
  | boot =>
    show (Host.boot host).state.cells.state id = .error
    have hcases := boot_cases host
    generalize Host.boot host = reply at hcases ⊢
    cases hcases with
    | refused => exact h
    | halted linux windows | unparked linux windows | parked linux windows =>
      cases id with
      | linux => rw [linux] at h; cases h
      | windows => rw [windows] at h; cases h
  | hibernate cell =>
    show ((Host.hibernate cell host).state.cells.get id).state = .error
    rcases CellId.eq_or_eq_other id cell with rfl | rfl
    · have hcases := hibernate_cases id host
      generalize Host.hibernate id host = reply at hcases ⊢
      cases hcases with
      | refused => exact h
      | freezeHalted running | unfrozen running | crowded running | copyHalted running
      | uncopied running | hibernated running => rw [h] at running; cases running
    · rw [get_other_hibernate]
      exact h
  | resume cell =>
    show ((Host.resume cell host).state.cells.get id).state = .error
    rcases CellId.eq_or_eq_other id cell with rfl | rfl
    · have hcases := resume_cases id host
      generalize Host.resume id host = reply at hcases ⊢
      cases hcases with
      | refused | contended | coreless => exact h
      | copyHalted ready | uncopied ready | thawHalted ready | unthawed ready | resumed ready =>
        have hibernated := ready.hibernated
        rw [h] at hibernated
        cases hibernated
    · rw [get_other_resume]
      exact h
  | fail cell =>
    show ((markFailed cell host).state.cells.get id).state = .error
    rcases CellId.eq_or_eq_other id cell with rfl | rfl
    · exact state_markFailed id host
    · rw [get_other_markFailed]
      exact h
  | disturb disturbance => exact h

end Operation
end Host

namespace SharedHost

/-- An operation on a simulated machine that two cells take in turn. -/
inductive Operation
  | cells (operation : Host.Operation)
  | switch
  | publish
  deriving Repr, DecidableEq

/-- The host with four cores and the compact configuration, with linux as the active cell. -/
def compact : SharedHost SimMachine :=
  ⟨.compact, .ofCells Host.compact.cells .degraded .notDetected⟩

namespace Operation

def act : Operation → Action (SharedHost SimMachine) Unit
  | cells operation => onHost operation.act
  | switch => SharedHost.switch.discard
  | publish => SharedHost.publish

def run (operations : List Operation) (shared : SharedHost SimMachine) : SharedHost SimMachine :=
  (Action.attemptEach act operations shared).state

/-- What every operation on the cells keeps of the host, a shared operation keeps. -/
theorem keeps_act {P : Host SimMachine → Prop}
    (operations : ∀ operation : Host.Operation, Action.Keeps P operation.act)
    (timed : ∀ {host now next}, Machine.now host.machine = some (now, next) → P host →
      P { host with machine := next })
    (operation : Operation) : Action.Keeps (fun shared => P shared.host) operation.act := by
  intro shared h
  cases operation with
  | cells operation => exact operations operation shared.host h
  | publish => exact h
  | switch =>
    show P (SharedHost.switch.discard shared).state.host
    rw [Action.state_discard]
    exact kept_switch (fun id => operations (.hibernate id)) (fun id => operations (.resume id))
      timed h

/-- The same of operations that return, where each of the steps of a switch does so too. -/
theorem kept_of_returned {P : Host SimMachine → Prop}
    (operations : ∀ (operation : Host.Operation) (host : Host SimMachine),
      (operation.act host).Returned → P host → P (operation.act host).state)
    (timed : ∀ {host now next}, Machine.now host.machine = some (now, next) → P host →
      P { host with machine := next })
    (operation : Operation) {shared : SharedHost SimMachine}
    (returned : (operation.act shared).Returned) (h : P shared.host) :
    P (operation.act shared).state.host := by
  have step : ∀ (operation : Host.Operation) {host after : Host SimMachine}
      {outcome : Outcome Unit} {log : List Notice},
      operation.act host = ⟨outcome, after, log⟩ → (∀ fault, outcome ≠ .fault fault) →
        P host → P after := by
    intro operation host after outcome log hact hreturned hhost
    have hafter := operations operation host (by rw [hact]; exact hreturned) hhost
    rw [hact] at hafter
    exact hafter
  cases operation with
  | cells operation => exact operations operation shared.host returned h
  | publish => exact h
  | switch =>
    have hreturned : (SharedHost.switch shared).Returned := Action.returned_of_discard returned
    show P (SharedHost.switch.discard shared).state.host
    rw [Action.state_discard]
    have hcases := switch_cases shared
    generalize SharedHost.switch shared = reply at hcases hreturned ⊢
    cases hcases with
    | refused | targetless => exact h
    | hibernateHalted | resumeHalted | uncounted | clockless => exact absurd rfl (hreturned _)
    | aborted _ hibernate => exact step (.hibernate _) hibernate nofun h
    | failed _ hibernate resume =>
      exact step (.resume _) resume nofun (step (.hibernate _) hibernate nofun h)
    | completed _ hibernate resume _ clock =>
      exact timed clock (step (.resume _) resume nofun (step (.hibernate _) hibernate nofun h))

theorem keeps_laid (config : Config) (topology : Topology) (operation : Operation) :
    Action.Keeps (fun shared => shared.host.cells.Laid config topology) operation.act :=
  keeps_act (Host.Operation.keeps_laid config topology) (fun _ h => h) operation

theorem laid_of_run (config : Config) (topology : Topology) (machine : SimMachine)
    (coordinator : Coordinator) (operations : List Operation) :
    (run operations ⟨⟨machine, .fresh config topology⟩, coordinator⟩).host.cells.Laid config
      topology :=
  Action.keeps_attemptEach (keeps_laid config topology) operations _
    (Cells.laid_fresh config topology)

end Operation
end SharedHost
end CellVisor
