import CellVisor.Proofs.Boot
import CellVisor.Proofs.Cell.Prompt
import CellVisor.Proofs.Exclusion.Calls
import CellVisor.Proofs.Switch.Turnout
import Mathlib.Algebra.Group.Nat.Even

/-!
# CellVisor.Proofs.Switch.Forever

On a machine with nothing out of order every switch succeeds, as long as the clock has words left.

* `SharedHost.Fit.switch`: a switch succeeds in three ticks, and leaves everything in order for the
  next one.
* `switchTimes_of_fit`: so does any number of switches, and the cells take turns.
* `fit_of_boot`: boot gets there, whatever devices and features the machine has.
* `switches_forever`: boot and any number of switches.
-/

namespace CellVisor

open SimMachine

/-! ## One switch -/

theorem Host.Fit.timed {config : Config} {topology : Topology} {host : Host SimMachine}
    (fit : host.Fit config topology) {time : UInt64} {next : SimMachine}
    (clock : Machine.now host.machine = some (time, next)) :
    ({ host with machine := next } : Host SimMachine).Fit config topology := by
  obtain ⟨-, rfl⟩ := now_eq_some.1 clock
  exact ⟨fit.laid, fit.agreeing, fit.prompt.cores, fit.prompt.copies⟩

namespace SharedHost

/-- The host is in order, the active cell runs and the other one sleeps. -/
structure Fit (config : Config) (topology : Topology) (shared : SharedHost SimMachine) : Prop where
  host : shared.host.Fit config topology
  running : shared.host.cells.state shared.coordinator.active = .running
  hibernated : shared.host.cells.state shared.coordinator.active.other = .hibernated

section Fit

variable {config : Config} {topology : Topology} {shared : SharedHost SimMachine}
  (hsound : config.IsSound) (hsplit : topology.IsSplit)
  (howned : ∀ id, (topology.ranges.get id).isEmpty = false)
  (hblocks : ∀ id,
    Image.blockCount (config.cells.get id).memory.size config.blockSize < UInt32.size)

include hsound hsplit howned hblocks

theorem Fit.switch (fit : shared.Fit config topology)
    (hclock : shared.host.machine.clock.toNat + 30 < UInt64.size)
    (hcount : shared.coordinator.switches.toNat + 1 < UInt64.size) :
    ∃ after log, switch shared = ⟨.ok shared.coordinator.active.other, after, log⟩ ∧
      after.Fit config topology ∧
      after.coordinator.active = shared.coordinator.active.other ∧
      after.coordinator.switches.toNat = shared.coordinator.switches.toNat + 1 ∧
      after.host.machine.clock.toNat = shared.host.machine.clock.toNat + 30 := by
  have hready : shared.Open := by
    refine ⟨fit.running, fit.hibernated, ?_⟩
    rw [fit.host.laid.cores]
    exact howned _
  obtain ⟨between, log, hibernate, hbetween, hfirst⟩ :=
    fit.host.hibernate hsound hsplit (by omega) fit.running (hblocks _)
  obtain ⟨host, resumeLog, resume, hhost, hsecond⟩ :=
    hbetween.resume hsound hsplit (by omega) (hready.ready_between hibernate) (hblocks _)
  have hcases := switch_cases shared
  generalize SharedHost.switch shared = reply at hcases ⊢
  cases hcases with
  | refused closed =>
    rcases closed with h | h
    · exact absurd fit.running h
    · exact absurd fit.hibernated h
  | targetless _ _ empty =>
    rw [hready.owned] at empty
    cases empty
  | hibernateHalted _ first | aborted _ first =>
    rw [hibernate] at first
    cases first
  | resumeHalted _ first second | failed _ first second =>
    rw [hibernate] at first
    cases first
    rw [resume] at second
    cases second
  | uncounted _ _ _ count =>
    have hout := Word.add?_eq_none_iff.1 count
    have hone : (1 : UInt64).toNat = 1 := rfl
    omega
  | clockless _ first second _ clock =>
    rw [hibernate] at first
    cases first
    rw [resume] at second
    cases second
    have hout := now_eq_none.1 clock
    omega
  | completed _ first second count clock =>
    rw [hibernate] at first
    cases first
    rw [resume] at second
    cases second
    have hfit := hhost.timed clock
    obtain ⟨htime, rfl⟩ := now_eq_some.1 clock
    have hslept : host.cells.state shared.coordinator.active = .hibernated :=
      Host.hibernated_of_resume_other hibernate resume
    have hwoke : host.cells.state shared.coordinator.active.other = .running :=
      Host.state_of_resume_ok resume
    refine ⟨_, _, rfl, ⟨hfit, hwoke, ?_⟩, rfl, Word.toNat_add? count, ?_⟩
    · show host.cells.state shared.coordinator.active.other.other = .hibernated
      rw [CellId.other_other]
      exact hslept
    · refine htime.symm.trans ?_
      omega

end Fit
end SharedHost

/-! ## Any number of switches -/

namespace Hypervisor

/-- Switches so many times. The first switch that fails ends it. -/
def switchTimes {M : Type} [Board M] : Nat → Action (Hypervisor M) Unit
  | 0 => pure ()
  | times + 1 => do
    switchTimes times
    let _ ← switch

theorem switch_of_shared {M : Type} [Board M] {hypervisor : Hypervisor M}
    {outcome : Outcome CellId} {shared : SharedHost M} {log : List Notice}
    (h : SharedHost.switch hypervisor.shared = ⟨outcome, shared, log⟩) :
    switch hypervisor = ⟨outcome, { hypervisor with shared }, log⟩ := by
  rw [switch, onShared, Action.zoom_apply, h]

section Times

variable {config : Config} {topology : Topology} {hypervisor : Hypervisor SimMachine}
  (hsound : config.IsSound) (hsplit : topology.IsSplit)
  (howned : ∀ id, (topology.ranges.get id).isEmpty = false)
  (hblocks : ∀ id,
    Image.blockCount (config.cells.get id).memory.size config.blockSize < UInt32.size)

include hsound hsplit howned hblocks

theorem switchTimes_of_fit (fit : hypervisor.shared.Fit config topology) (times : Nat)
    (hclock : hypervisor.machine.clock.toNat + 30 * times < UInt64.size)
    (hcount : hypervisor.coordinator.switches.toNat + times < UInt64.size) :
    ∃ after log, switchTimes times hypervisor = ⟨.ok (), after, log⟩ ∧
      after.shared.Fit config topology ∧
      after.machine.clock.toNat = hypervisor.machine.clock.toNat + 30 * times ∧
      after.coordinator.switches.toNat = hypervisor.coordinator.switches.toNat + times ∧
      (after.activeCell = hypervisor.activeCell ↔ Even times) := by
  induction times with
  | zero => exact ⟨hypervisor, [], rfl, fit, rfl, rfl, by simp⟩
  | succ times ih =>
    obtain ⟨middle, log, hmiddle, hfit, hclocked, hcounted, hturn⟩ := ih (by omega) (by omega)
    have hclock' : middle.shared.host.machine.clock.toNat + 30 < UInt64.size := by
      show middle.machine.clock.toNat + 30 < _
      omega
    have hcount' : middle.shared.coordinator.switches.toNat + 1 < UInt64.size := by
      show middle.coordinator.switches.toNat + 1 < _
      omega
    obtain ⟨shared, switchLog, hswitch, hafter, hactive, hswitches, hticked⟩ :=
      hfit.switch hsound hsplit howned hblocks hclock' hcount'
    refine ⟨{ middle with shared }, log ++ switchLog, ?_, hafter, ?_, ?_, ?_⟩
    · rw [switchTimes, Action.bind_of_ok hmiddle, Action.bind_of_ok (switch_of_shared hswitch)]
      simp [Action.pure_apply]
    · show shared.host.machine.clock.toNat = _
      rw [hticked]
      show middle.machine.clock.toNat + 30 = _
      omega
    · show shared.coordinator.switches.toNat = _
      rw [hswitches]
      show middle.coordinator.switches.toNat + 1 = _
      omega
    · show shared.coordinator.active = _ ↔ _
      have hmoved : shared.coordinator.active = middle.activeCell.other := hactive
      rw [hmoved, Nat.even_add_one, ← hturn]
      generalize middle.activeCell = before
      generalize hypervisor.activeCell = first
      cases before <;> cases first <;> decide

end Times

/-! ## From the boot on -/

section Boot

variable {config : Config} {topology : Topology} {machine : SimMachine}

/-- Before the cells are started boot writes to registers only: the cores, the clock and what
becomes of copies are as on `start`. -/
structure Untouched (start machine : SimMachine) : Prop where
  cores : ∀ core, machine.core core = start.core core
  copies : machine.copiesLeft = start.copiesLeft
  clock : machine.clock = start.clock

theorem completes_bootCells (hsplit : topology.IsSplit) (prompt : machine.Prompt)
    (unparked : ∀ core, machine.isParked core = false)
    (hclock : machine.clock.toNat + 10 < UInt64.size) :
    Action.Completes (Untouched machine) (bootCells config topology) fun cells after =>
      (⟨after, cells⟩ : Host SimMachine).Fit config topology ∧
        after.clock.toNat = machine.clock.toNat + 10 ∧
        cells.state .linux = .running ∧ cells.state .windows = .hibernated := by
  rintro before untouched
  have hunparked : ∀ cores, NoneParked cores before.isParked := fun cores core _ => by
    rw [isParked, untouched.cores]
    exact unparked core
  have hprompt : before.Prompt := by
    refine ⟨fun core => ?_, untouched.copies.trans prompt.copies⟩
    rw [untouched.cores]
    exact prompt.cores core
  have hfit : (⟨before, .fresh config topology⟩ : Host SimMachine).Fit config topology :=
    ⟨Cells.laid_fresh config topology, agreeing_fresh (hunparked _), hprompt⟩
  have hclock' : before.clock.toNat + 10 < UInt64.size := by
    rw [untouched.clock]
    exact hclock
  obtain ⟨host, log, hboot, hhost, hticked, linux, windows⟩ :=
    hfit.boot hsplit hclock' rfl rfl (hunparked _)
  refine ⟨host.cells, host.machine, log, bootCells_eq_ok_iff.2 hboot, hhost, ?_, linux, windows⟩
  rw [hticked]
  show before.clock.toNat + 10 = _
  rw [untouched.clock]

/-- Boot brings up the cells of a machine with nothing out of order, and linux runs first. -/
theorem fit_of_boot (hvalid : config.validate = .ok ())
    (hprobe : (Topology.probe machine.leaf config.linuxCores machine).outcome = .ok topology)
    (prompt : machine.Prompt) (unparked : ∀ core, machine.isParked core = false)
    (hclock : machine.clock.toNat + 10 < UInt64.size) :
    ∃ hypervisor, (boot config machine).outcome = .ok hypervisor ∧
      hypervisor.shared.Fit config topology ∧ hypervisor.activeCell = .linux ∧
      hypervisor.coordinator.switches = 0 ∧
      hypervisor.machine.clock.toNat = machine.clock.toNat + 10 := by
  have hsplit := Topology.isSplit_of_probe hprobe
  obtain ⟨hypervisor, hbooted, -, -, hfit, hticked, linux, windows⟩ :=
    completes_boot hvalid hprobe ⟨fun _ => rfl, rfl, rfl⟩
      (fun _ _ _ h => ⟨h.cores, h.copies, h.clock⟩) (fun _ _ _ h => ⟨h.cores, h.copies, h.clock⟩)
      (completes_bootCells hsplit prompt unparked hclock)
  have hcoordinator := (parts_of_boot hbooted).2.2.1
  have hactive := (turn_of_boot hbooted).1
  refine ⟨hypervisor, hbooted, ⟨hfit, ?_, ?_⟩, hactive, ?_, hticked⟩
  · rw [show hypervisor.shared.coordinator.active = .linux from hactive]
    exact linux
  · rw [show hypervisor.shared.coordinator.active = .linux from hactive]
    exact windows
  · rw [hcoordinator]
    rfl

/-- On a machine with nothing out of order and a core for windows, boot succeeds, and so does any
number of switches after it, as long as the clock has words left for them. Afterwards the active
cell runs and the other one does not, it is linux after an even number of switches, and all of them
were counted. -/
theorem switches_forever (hvalid : config.validate = .ok ())
    (hblocks : ∀ id,
      Image.blockCount (config.cells.get id).memory.size config.blockSize < UInt32.size)
    (hprobe : (Topology.probe machine.leaf config.linuxCores machine).outcome = .ok topology)
    (owned : (topology.ranges.get .windows).isEmpty = false) (prompt : machine.Prompt)
    (unparked : ∀ core, machine.isParked core = false) (times : Nat)
    (hclock : machine.clock.toNat + 10 + 30 * times < UInt64.size) :
    ∃ hypervisor, (boot config machine).outcome = .ok hypervisor ∧
      (switchTimes times hypervisor).outcome = .ok () ∧
      (∀ id, (switchTimes times hypervisor).state.cells.state id = .running ↔
        id = (switchTimes times hypervisor).state.activeCell) ∧
      ((switchTimes times hypervisor).state.activeCell = .linux ↔ Even times) ∧
      (switchTimes times hypervisor).state.coordinator.switches.toNat = times := by
  obtain ⟨hypervisor, hbooted, hfit, hactive, hswitches, hticked⟩ :=
    fit_of_boot hvalid hprobe prompt unparked (by omega)
  have hzero : hypervisor.coordinator.switches.toNat = 0 := by
    rw [hswitches]
    rfl
  obtain ⟨after, log, hreply, hafter, -, hcounted, hturn⟩ := switchTimes_of_fit
    (Config.isSound_of_validate hvalid) (Topology.isSplit_of_probe hprobe)
    (Topology.owned_of_probe hprobe owned) hblocks hfit times (by omega) (by omega)
  refine ⟨hypervisor, hbooted, ?_⟩
  rw [hreply]
  refine ⟨rfl, fun id => ?_, ?_, ?_⟩
  · rcases CellId.eq_or_eq_other id after.activeCell with rfl | rfl
    · exact ⟨fun _ => rfl, fun _ => hafter.running⟩
    · have hsleeps : after.cells.state after.activeCell.other = .hibernated := hafter.hibernated
      rw [hsleeps]
      simp [CellId.other_ne]
  · rw [← hactive]
    exact hturn
  · show after.coordinator.switches.toNat = times
    omega

/-- Three switches on four cores. -/
theorem switches_forever_compact :
    ∃ hypervisor, (boot .compact (SimMachine.ofCores 4)).outcome = .ok hypervisor ∧
      (switchTimes 3 hypervisor).outcome = .ok () ∧
      (switchTimes 3 hypervisor).state.activeCell ≠ .linux ∧
      (switchTimes 3 hypervisor).state.coordinator.switches.toNat = 3 := by
  have hblocks : ∀ id, Image.blockCount (Config.compact.cells.get id).memory.size
      Config.compact.blockSize < UInt32.size := by
    intro id
    cases id <;> decide
  have hprobe : (Topology.probe (SimMachine.ofCores 4).leaf Config.compact.linuxCores
      (SimMachine.ofCores 4)).outcome = .ok .halved := rfl
  have hprompt : (SimMachine.ofCores 4).Prompt := ⟨fun _ => ⟨rfl, rfl⟩, rfl⟩
  obtain ⟨hypervisor, hbooted, hok, -, hturn, hcount⟩ := switches_forever validate_compact hblocks
    hprobe rfl hprompt (fun _ => rfl) 3 (by decide)
  exact ⟨hypervisor, hbooted, hok, fun h => absurd (hturn.1 h) (by decide), hcount⟩

end Boot
end Hypervisor
end CellVisor
