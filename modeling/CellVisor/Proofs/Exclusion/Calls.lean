import CellVisor.Proofs.Boot
import CellVisor.Proofs.Exclusion.Turn

/-!
# CellVisor.Proofs.Exclusion.Calls

From the end of a boot that leaves windows hibernated, the two cells never run together, whatever is
asked of the hypervisor and whatever happens to the machine between the calls.

* `secured_of_boot`: such a boot establishes the invariant.
* `shared_act`: what a call can do to the host.
* `secured_act`, `tracked_act`: each call keeps it, and keeps the cells apart at every moment.
* `never_together`: so does every run.
-/

namespace CellVisor

open SimMachine

namespace Hypervisor

/-- What is asked of a hypervisor, or done to its machine from outside. -/
inductive Call
  | switch
  | handle (event : Event)
  | reassign (address : Pci.Address) (target : CellId)
  | allocate (size : UInt64)
  | disturb (disturbance : Sim.Disturbance)
  deriving Repr, DecidableEq

namespace Call

def act : Call → Action (Hypervisor SimMachine) Unit
  | switch => Hypervisor.switch.discard
  | handle event => Hypervisor.handle event
  | reassign address target => Hypervisor.reassign address target
  | allocate size => (Hypervisor.allocate size).discard
  | disturb disturbance =>
    onShared (SharedHost.onHost (Host.onMachine (Action.update disturbance.apply)))

end Call

/-! ## The boot -/

section Boot

variable {config : Config} {machine : SimMachine} {hypervisor : Hypervisor SimMachine}

/-- A start that leaves windows hibernated has parked its cores and lets linux run. -/
theorem started_of_boot {topology : Topology} {before : SimMachine} {host : Host SimMachine}
    {log : List Notice}
    (h : Host.boot ⟨before, .fresh config topology⟩ = ⟨.ok (), host, log⟩)
    (slept : host.cells.state .windows = .hibernated) :
    host.cells.Laid config topology ∧ host.cells.state .linux = .running ∧
      AllParked (topology.ranges.get .windows) host.machine.isParked := by
  have hlaid := Cells.laid_fresh config topology
  have hblank := Host.blank_boot (⟨before, .fresh config topology⟩ : Host SimMachine)
  have hcases := Host.boot_cases ⟨before, .fresh config topology⟩
  rw [h] at hblank hcases
  refine ⟨hlaid.of_blank_eq hblank, ?_⟩
  cases hcases with
  | unparked => cases slept
  | parked _ _ freeze => exact ⟨rfl, allParked_of_call freeze⟩

/-- A boot that leaves windows hibernated gives linux its turn. -/
theorem secured_of_boot (h : (boot config machine).outcome = .ok hypervisor)
    (slept : hypervisor.cells.state .windows = .hibernated) :
    hypervisor.shared.Secured config hypervisor.topology hypervisor.machine := by
  obtain ⟨-, -, -, before, log, hboot⟩ := parts_of_boot h
  obtain ⟨hlaid, hruns, hparked⟩ := started_of_boot hboot slept
  have hactive : hypervisor.shared.coordinator.active = .linux := (turn_of_boot h).1
  refine ⟨hlaid, watched_refl (exclusive_of_allParked _ .windows _ hparked), .active ?_ ?_ ?_⟩
  · rw [hactive]
    exact hruns
  · rw [hactive]
    show hypervisor.cells.state .windows ≠ .running
    rw [slept]
    simp
  · rw [hactive]
    exact hparked

end Boot

/-! ## The calls -/

section Calls

variable {config : Config} {topology : Topology} {start : SimMachine}

theorem handle_eq (event : Event) :
    (handle event : Action (Hypervisor SimMachine) Unit) = switch.discard := by
  cases event
  rfl

theorem keeps_reassign {P : Hypervisor SimMachine → Prop} {address : Pci.Address}
    {target : CellId}
    (assign : Action.Keeps P (onDirectory (Directory.assign address target))) :
    Action.Keeps P (reassign address target) := by
  unfold reassign
  refine Action.Keeps.bind (fun _ h => h) fun now => ?_
  split
  · exact Action.keeps_fail _
  · split
    · split
      · exact (Action.keeps_note _).bind fun _ => Action.keeps_fail _
      · exact assign
    · exact Action.keeps_pure ()

theorem shared_reassign (address : Pci.Address) (target : CellId)
    (hypervisor : Hypervisor SimMachine) :
    (reassign address target hypervisor).state.shared = hypervisor.shared :=
  keeps_reassign (P := fun after => after.shared = hypervisor.shared) (fun _ h => h) hypervisor rfl

/-- What a call can do to the host: switch its cells, or what was done to the machine from
outside. -/
theorem shared_act (call : Call) (hypervisor : Hypervisor SimMachine) :
    (call.act hypervisor).state.shared = hypervisor.shared ∨
      (∃ disturbance : Sim.Disturbance, (call.act hypervisor).state.shared =
        { hypervisor.shared with
          host := { hypervisor.shared.host with
            machine := disturbance.apply hypervisor.shared.host.machine } }) ∨
      (call.act hypervisor).state.shared = (SharedHost.switch hypervisor.shared).state ∧
        ((call.act hypervisor).Returned → (SharedHost.switch hypervisor.shared).Returned) := by
  have hswitch : (switch.discard hypervisor).state.shared =
        (SharedHost.switch hypervisor.shared).state ∧
      ((switch.discard hypervisor).Returned →
        (SharedHost.switch hypervisor.shared).Returned) := by
    rw [Action.state_discard]
    exact ⟨rfl, Action.returned_of_discard⟩
  cases call with
  | switch => exact .inr (.inr hswitch)
  | handle event =>
    rw [Call.act, handle_eq]
    exact .inr (.inr hswitch)
  | reassign address target => exact .inl (shared_reassign address target hypervisor)
  | allocate size =>
    rw [Call.act, Action.state_discard]
    exact .inl rfl
  | disturb disturbance => exact .inr (.inl ⟨disturbance, rfl⟩)

theorem silent_assign (address : Pci.Address) (owner : CellId) :
    Action.Says Notice.Silent (Directory.assign address owner) := by
  unfold Directory.assign
  refine Action.says_get.bind fun directory => ?_
  split
  · exact Action.says_fail _
  · split
    · exact (Action.says_note fun _ => rfl).bind fun _ => Action.says_update _
    · exact Action.says_pure ()

theorem silent_reassign (address : Pci.Address) (target : CellId) :
    Action.Says Notice.Silent
      (reassign address target : Action (Hypervisor SimMachine) Unit) := by
  unfold reassign
  refine Action.says_get.bind fun hypervisor => ?_
  split
  · exact Action.says_fail _
  · split
    · split
      · exact (Action.says_note fun _ => rfl).bind fun _ => Action.says_fail _
      · exact (silent_assign address target).zoom
    · exact Action.says_pure ()

theorem silent_allocateAligned (size align : UInt64) :
    Action.Says Notice.Silent (Bump.allocateAligned size align) := by
  unfold Bump.allocateAligned
  dsimp only
  split
  · exact Action.says_fail_bind _ _
  · split
    · exact Action.says_fail_bind _ _
    · refine Action.says_get.bind fun bump => ?_
      split
      · exact (Action.says_word _).bind fun _ => (Action.says_update _).bind fun _ =>
          Action.says_pure _
      · exact (Action.says_word _).bind fun _ => (Action.says_update _).bind fun _ =>
          (Action.says_note fun _ => rfl).bind fun _ => Action.says_fail _

theorem silent_allocate (size : UInt64) :
    Action.Says Notice.Silent (allocate size : Action (Hypervisor SimMachine) UInt64) :=
  (silent_allocateAligned size 1).zoom.zoom

/-- What a switch keeps of the shared host, and what is done from outside keeps, a call keeps. -/
theorem keeps_shared {P : SharedHost SimMachine → Prop} (hswitch : Action.Keeps P SharedHost.switch)
    (hdisturbed : ∀ (disturbance : Sim.Disturbance) (shared : SharedHost SimMachine), P shared →
      P { shared with
        host := { shared.host with machine := disturbance.apply shared.host.machine } })
    (call : Call) : Action.Keeps (fun hypervisor => P hypervisor.shared) call.act := by
  intro hypervisor h
  rcases shared_act call hypervisor with hsame | ⟨disturbance, happlied⟩ | ⟨hswitched, -⟩
  · rw [hsame]
    exact h
  · rw [happlied]
    exact hdisturbed disturbance hypervisor.shared h
  · rw [hswitched]
    exact hswitch hypervisor.shared h

theorem secured_act (hsplit : topology.IsSplit) (call : Call) :
    Action.Keeps (fun hypervisor => hypervisor.shared.Secured config topology start) call.act :=
  keeps_shared (fun _ => SharedHost.secured_switch hsplit)
    (fun disturbance _ h => h.disturbed disturbance) call

/-- Each call announces every change of a state, and lets the cells run one at a time. -/
theorem tracked_act (call : Call) {hypervisor : Hypervisor SimMachine}
    (h : ¬ BothRun hypervisor.cells.states) :
    Tracked hypervisor.cells.states (call.act hypervisor).log
      (call.act hypervisor).state.cells.states := by
  have hswitch : Tracked hypervisor.cells.states (switch.discard hypervisor).log
      (switch.discard hypervisor).state.cells.states := by
    rw [Action.log_discard, Action.state_discard]
    exact tracked_switch h
  cases call with
  | switch => exact hswitch
  | handle event =>
    show Tracked _ (handle event hypervisor).log (handle event hypervisor).state.cells.states
    rw [handle_eq]
    exact hswitch
  | reassign address target =>
    have hlog := silent_reassign address target hypervisor
    show Tracked _ (reassign address target hypervisor).log
      (reassign address target hypervisor).state.shared.host.cells.states
    rw [shared_reassign]
    exact .silent h hlog
  | allocate size =>
    have hlog := silent_allocate size hypervisor
    show Tracked _ ((allocate size).discard hypervisor).log
      ((allocate size).discard hypervisor).state.cells.states
    rw [Action.log_discard, Action.state_discard]
    exact .silent h hlog
  | disturb disturbance => exact .nil h

theorem tracked_run (hsplit : topology.IsSplit) (calls : List Call)
    {hypervisor : Hypervisor SimMachine}
    (h : hypervisor.shared.Secured config topology start) :
    Tracked hypervisor.cells.states (Action.attemptEach Call.act calls hypervisor).log
      (Action.attemptEach Call.act calls hypervisor).state.cells.states := by
  induction calls generalizing hypervisor with
  | nil => exact .nil h.turn.not_bothRun
  | cons call rest ih =>
    have hcall := tracked_act call h.turn.not_bothRun
    rcases Action.attemptEach_cons Call.act call hypervisor with ⟨fault, hstop⟩ | hgo
    · rw [hstop]
      exact hcall
    · rw [hgo]
      exact hcall.append (ih (secured_act hsplit call hypervisor h))

/-- Two guests never execute at the same time. After a boot that leaves windows hibernated,
whatever is asked of the hypervisor and done to its machine: the notices lead from the states at the
boot to those at the end, and at no moment between do both cells run; the events lead from the cores
that were parked to those that are, and at no moment between does a core of each cell go on. -/
theorem never_together (calls : List Call) {machine : SimMachine}
    {hypervisor : Hypervisor SimMachine}
    (booted : (boot config machine).outcome = .ok hypervisor)
    (slept : hypervisor.cells.state .windows = .hibernated) :
    Tracked hypervisor.cells.states (Action.attemptEach Call.act calls hypervisor).log
        (Action.attemptEach Call.act calls hypervisor).state.cells.states ∧
      Watched (Exclusive hypervisor.topology) hypervisor.machine
        (Action.attemptEach Call.act calls hypervisor).state.machine := by
  have hsplit := (parts_of_boot booted).1
  have hsecured := secured_of_boot booted slept
  have hlast := Action.keeps_attemptEach (secured_act hsplit) calls hypervisor hsecured
  exact ⟨tracked_run hsplit calls hsecured, hlast.watched⟩

/-- A core of windows ceases to answer, so linux is hibernated and windows comes up in part. -/
theorem never_together_compact :
    ∃ hypervisor, (boot .compact (.ofCores 4)).outcome = .ok hypervisor ∧
      hypervisor.cells.state .windows = .hibernated ∧
      Watched (Exclusive hypervisor.topology) hypervisor.machine
        (Action.attemptEach Call.act [.disturb (.respond 3 false), .switch]
          hypervisor).state.machine := by
  have hboots : (match (boot .compact (SimMachine.ofCores 4)).outcome with
      | .ok hypervisor => decide (hypervisor.cells.state .windows = .hibernated)
      | _ => false) = true := by
    decide +kernel
  cases booted : (boot .compact (SimMachine.ofCores 4)).outcome with
  | ok hypervisor =>
    rw [booted] at hboots
    have slept := of_decide_eq_true hboots
    exact ⟨hypervisor, rfl, slept,
      (never_together [.disturb (.respond 3 false), .switch] booted slept).2⟩
  | error | fault =>
    rw [booted] at hboots
    cases hboots

end Calls

end Hypervisor
end CellVisor
