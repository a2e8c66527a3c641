import CellVisor.Proofs.Cell.Events
import CellVisor.Proofs.Switch.Published

/-!
# CellVisor.Proofs.Boot.Outcome

How a boot on the simulated machine ends, whatever processor, devices, registers and cores it has.

* `started_of_ok`: the start of the cells leaves windows hibernated or in error, as its cores have
  answered.
* `ok_of_fresh`: it does not halt before the clock runs out.
* `booted_of_ok`: what a boot leaves agrees with itself and with what the cores have answered.
* `boots_unless_invalid`: nothing but an invalid configuration stops a boot.
-/

namespace CellVisor

open SimMachine

/-! ## The start of the cells -/

/-- Linux runs, and windows is hibernated if each of its cores has acknowledged the freeze since
`start`, and in error if one has not. -/
structure Cells.Started (config : Config) (topology : Topology) (start : SimMachine)
    (cells : Cells) (machine : SimMachine) : Prop where
  laid : cells.Laid config topology
  linux : cells.state .linux = .running
  windows : ∃ events, machine.events = start.events ++ events ∧
    ((cells.state .windows = .hibernated ∧
        ∀ core ∈ (topology.ranges.get .windows).toList, .ack core .freeze ∈ events) ∨
      (cells.state .windows = .error ∧
        ∃ core ∈ (topology.ranges.get .windows).toList, .ack core .freeze ∉ events))

section Start

variable {config : Config} {topology : Topology}

theorem started_of_ok (hsplit : topology.IsSplit) {before : SimMachine} {host : Host SimMachine}
    {log : List Notice}
    (h : Host.boot ⟨before, .fresh config topology⟩ = ⟨.ok (), host, log⟩) :
    host.cells.Started config topology before host.machine := by
  let fresh : Cells := .fresh config topology
  have hlaid : fresh.Laid config topology := Cells.laid_fresh config topology
  have hcores : (fresh.get .windows).cores.stop.toNat ≤ maxCores := hsplit.bounded .windows
  have hcases := Host.boot_cases ⟨before, fresh⟩
  rw [h] at hcases
  cases hcases with
  | unparked _ _ freeze =>
    obtain ⟨acks, hcalled, -, hlate⟩ := called_of_call hcores freeze
    obtain ⟨core, hcore, hmissing⟩ := hlate _ rfl
    refine ⟨?_, rfl, _, hcalled.events, .inr ⟨rfl, core, hcore, ?_⟩⟩
    · exact hlaid.of_blank_eq (by rw [Cells.blank_moveTo, Cells.blank_moveTo])
    · exact fun hanswered => hmissing (Barrier.mem_answers.1 hanswered)
  | parked _ _ freeze =>
    obtain ⟨acks, hcalled, hall, -⟩ := called_of_call hcores freeze
    refine ⟨?_, rfl, _, hcalled.events, .inl ⟨rfl, fun core hcore => ?_⟩⟩
    · exact hlaid.of_blank_eq (by rw [Cells.blank_moveTo, Cells.blank_moveTo])
    · exact Barrier.mem_answers.2 ((hall rfl).mem_iff.2 hcore)

/-- The start fails nowhere, and halts only where the clock runs out while it waits. -/
theorem ok_of_fresh {before : SimMachine}
    (hclock : before.clock.toNat + config.freezeTimeout.toNat + 20 < UInt64.size) :
    ∃ host log, Host.boot ⟨before, .fresh config topology⟩ = ⟨.ok (), host, log⟩ := by
  let fresh : Cells := .fresh config topology
  have hcases := Host.boot_cases ⟨before, fresh⟩
  show ∃ host log, Host.boot ⟨before, fresh⟩ = _
  generalize Host.boot ⟨before, fresh⟩ = reply at hcases ⊢
  cases hcases with
  | refused started => rcases started with h | h <;> exact absurd rfl h
  | halted _ _ freeze =>
    obtain ⟨hinTime, hspent⟩ := (Barrier.clock_rendezvous fresh.barrier
      (fresh.get .windows).cores .freeze before).2 _ (congrArg Reply.outcome freeze)
    have htimeout : fresh.barrier.timeout = config.freezeTimeout := rfl
    rw [htimeout] at hinTime
    omega
  | unparked | parked => exact ⟨_, _, rfl⟩

end Start

/-! ## The whole -/

namespace Hypervisor

/-- What a boot of the machine `start` leaves: the cells share the detected cores and are started,
linux is active, nothing has been switched, and the published status shows all of it. -/
structure Booted (config : Config) (start : SimMachine) (hypervisor : Hypervisor SimMachine) :
    Prop where
  config_eq : hypervisor.config = config
  split : ∃ total : UInt32, 0 < total.toNat ∧ total.toNat ≤ maxCores ∧
    hypervisor.topology.Divides total
  cores : ∀ id, (hypervisor.cells.get id).cores = hypervisor.topology.ranges.get id
  started : hypervisor.cells.Started config hypervisor.topology start hypervisor.machine
  active : hypervisor.activeCell = .linux
  switches : hypervisor.coordinator.switches = 0
  lastSwitch : hypervisor.coordinator.lastSwitch = none
  current : hypervisor.Current

section Boot

variable {config : Config} {machine : SimMachine}

theorem ok_of_valid (hvalid : config.validate = .ok ())
    (hclock : machine.clock.toNat + config.freezeTimeout.toNat + 20 < UInt64.size) :
    ∃ hypervisor, (boot config machine).outcome = .ok hypervisor := by
  obtain ⟨topology, hprobe⟩ := Topology.ok_of_probe machine.leaf config.linuxCores machine
  have hcells : Action.Completes (fun before : SimMachine => before.clock = machine.clock)
      (bootCells config topology) fun _ _ => True := by
    intro before hbefore
    rw [← hbefore] at hclock
    obtain ⟨host, log, hboot⟩ := ok_of_fresh hclock
    exact ⟨host.cells, host.machine, log, bootCells_eq_ok_iff.2 hboot, trivial⟩
  obtain ⟨hypervisor, hboot, -⟩ := completes_boot hvalid hprobe (by rfl) (fun _ _ _ h => h)
    (fun _ _ _ h => h) hcells
  exact ⟨hypervisor, hboot⟩

theorem booted_of_ok {hypervisor : Hypervisor SimMachine}
    (h : (boot config machine).outcome = .ok hypervisor) : hypervisor.Booted config machine := by
  -- before the cells are started boot writes to registers only
  have hstaged : hypervisor.Staged config (fun before => before.events = machine.events) machine :=
    staged_of_boot rfl (fun _ _ _ h => h) (fun _ _ _ h => h) h
  obtain ⟨before, log, hevents, hboot⟩ := hstaged.started
  have hstarted := started_of_ok (Topology.isSplit_of_probe hstaged.probed) hboot
  obtain ⟨events, hgone, hwindows⟩ := hstarted.windows
  rw [hevents] at hgone
  obtain ⟨hsettled, hinformed⟩ := settled_of_boot h
  have hcoordinator := hstaged.coordinator
  refine ⟨hstaged.config_eq, Topology.divides_of_probe hstaged.probed, hstarted.laid.cores,
    ⟨hstarted.laid, hstarted.linux, events, hgone, hwindows⟩, (turn_of_boot h).1, ?_, ?_,
    hinformed.current hsettled⟩
  · rw [hcoordinator]
    rfl
  · rw [hcoordinator]
    rfl

/-- Boot fails only for an invalid configuration, whatever the machine is like: it ends with an
error exactly where the configuration is not accepted, and with that error. With an accepted one it
gives a hypervisor, as long as the clock can wait for the cores once. In every hypervisor that it
gives:

* linux runs and owns a core, and the cores of both cells are all that were detected;
* windows is hibernated if each of its cores has acknowledged the freeze in time, and in error if
  one has not;
* linux is active and nothing has been switched;
* the isolation is that of the devices, and the published status says all of this. -/
theorem boots_unless_invalid :
    (∀ error, (boot config machine).outcome = .error error ↔ config.validate = .error error) ∧
      (config.validate = .ok () →
        machine.clock.toNat + config.freezeTimeout.toNat + 20 < UInt64.size →
          ∃ hypervisor, (boot config machine).outcome = .ok hypervisor) ∧
      ∀ hypervisor, (boot config machine).outcome = .ok hypervisor →
        hypervisor.Booted config machine := by
  refine ⟨fun error => ⟨fun hfailed => ?_, boot_of_invalid⟩, ok_of_valid,
    fun _ => booted_of_ok⟩
  cases hvalid : config.validate with
  | ok => exact absurd hfailed (boot_ne_error hvalid error)
  | error reason =>
    rw [boot_of_invalid hvalid] at hfailed
    cases hfailed
    rfl

theorem boots_unless_invalid_compact :
    (SimMachine.ofCores 4).clock.toNat + Config.compact.freezeTimeout.toNat + 20 < UInt64.size ∧
      ∃ hypervisor, (boot .compact (SimMachine.ofCores 4)).outcome = .ok hypervisor ∧
        hypervisor.status =
          { active := .linux
            cells := ⟨⟨.running, 2, 0⟩, ⟨.hibernated, 2, 0⟩⟩
            switches := 0
            lastSwitch := none
            isolation := .degraded
            iommu := .notDetected } ∧
        hypervisor.Booted .compact (.ofCores 4) := by
  have hclock : (SimMachine.ofCores 4).clock.toNat + Config.compact.freezeTimeout.toNat + 20 <
      UInt64.size := by decide
  have hshown : (match (boot .compact (SimMachine.ofCores 4)).outcome with
      | .ok hypervisor => decide (hypervisor.status =
          ⟨.linux, ⟨⟨.running, 2, 0⟩, ⟨.hibernated, 2, 0⟩⟩, 0, none, .degraded, .notDetected⟩)
      | _ => false) = true := by
    decide +kernel
  obtain ⟨hypervisor, hboot⟩ := boots_unless_invalid.2.1 validate_compact hclock
  rw [hboot] at hshown
  exact ⟨hclock, hypervisor, hboot, of_decide_eq_true hshown,
    boots_unless_invalid.2.2 hypervisor hboot⟩

end Boot
end Hypervisor
end CellVisor
