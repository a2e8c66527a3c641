import CellVisor.Proofs.Cell.Endings
import CellVisor.Proofs.Operation

/-!
# CellVisor.Proofs.Switch.Turnout

How a switch turns out on the simulated machine.

* `switch_turnout`: it completes, is refused without any effect, is aborted with the active cell
  out of order, or fails with the other cell out of order; and where it does not come to an end, the
  clock or the count of switches has run out. After an abortion or a failure no later switch is
  taken up.
* `keeps_stuck`: nothing brings back a cell that is out of order.
-/

namespace CellVisor

open SimMachine

namespace SharedHost

/-- How a switch turns out, given its outcome and the state that it leaves. -/
inductive Turnout (config : Config) (shared : SharedHost SimMachine) :
    Outcome CellId → SharedHost SimMachine → Prop where
  | completed {after : SharedHost SimMachine} (ready : shared.Open)
      (slept : after.host.cells.state shared.coordinator.active = .hibernated)
      (woke : after.host.cells.state shared.coordinator.active.other = .running)
      (active : after.coordinator.active = shared.coordinator.active.other)
      (counted : after.coordinator.switches.toNat = shared.coordinator.switches.toNat + 1)
      (timed : after.coordinator.lastSwitch = some after.host.machine.clock) :
      Turnout config shared (.ok shared.coordinator.active.other) after
  | refused (closed : shared.host.cells.state shared.coordinator.active ≠ .running ∨
        shared.host.cells.state shared.coordinator.active.other ≠ .hibernated) :
      Turnout config shared (.error .invalidState) shared
  | targetless (running : shared.host.cells.state shared.coordinator.active = .running)
      (hibernated : shared.host.cells.state shared.coordinator.active.other = .hibernated)
      (empty : (shared.host.cells.get shared.coordinator.active.other).cores.isEmpty = true) :
      Turnout config shared (.error (.config .targetOwnsNoCores)) shared
  | aborted {error : Error} {after : SharedHost SimMachine} (ready : shared.Open)
      (cause : Cause (shared.host.cells.get shared.coordinator.active).cores error)
      (broken : after.host.cells.state shared.coordinator.active = .error)
      (untouched : after.host.cells.get shared.coordinator.active.other =
        shared.host.cells.get shared.coordinator.active.other)
      (unthawed : shared.host.machine.GoneOn (fun event => ∀ core, event ≠ .signal core .thaw)
        after.host.machine)
      (active : after.coordinator.active = shared.coordinator.active)
      (switches : after.coordinator.switches = shared.coordinator.switches)
      (lastSwitch : after.coordinator.lastSwitch = shared.coordinator.lastSwitch) :
      Turnout config shared (.error error) after
  | failed {error : Error} {after : SharedHost SimMachine} (ready : shared.Open)
      (cause : Cause (shared.host.cells.get shared.coordinator.active.other).cores error)
      (slept : after.host.cells.state shared.coordinator.active = .hibernated)
      (broken : after.host.cells.state shared.coordinator.active.other = .error)
      (active : after.coordinator.active = shared.coordinator.active)
      (switches : after.coordinator.switches = shared.coordinator.switches)
      (lastSwitch : after.coordinator.lastSwitch = shared.coordinator.lastSwitch) :
      Turnout config shared (.error error) after
  /-- No further tick fits the clock that was reached, or no further switch the count of them. -/
  | halted {fault : Fault} {after : SharedHost SimMachine} (ready : shared.Open)
      (inTime : after.host.machine.clock.toNat ≤
        shared.host.machine.clock.toNat + 2 * config.freezeTimeout.toNat + 40)
      (spent : UInt64.size ≤ after.host.machine.clock.toNat + 10 ∨
        UInt64.size ≤ shared.coordinator.switches.toNat + 1) :
      Turnout config shared (.fault fault) after

/-! ## One switch -/

section Turnout

variable {config : Config} {topology : Topology} {shared : SharedHost SimMachine}

theorem Open.ready_between (ready : shared.Open) {between : Host SimMachine} {log : List Notice}
    (hibernate : Host.hibernate shared.coordinator.active shared.host = ⟨.ok (), between, log⟩) :
    Host.Ready shared.coordinator.active.other between.cells := by
  have hslept := Host.state_of_hibernate_ok hibernate
  have hother := Host.get_other_hibernate shared.coordinator.active shared.host
  rw [hibernate] at hother
  refine ⟨?_, ?_, ?_⟩
  · rw [Cells.state, hother]
    exact ready.hibernated
  · rw [CellId.other_other, hslept]
    simp
  · rw [hother]
    exact ready.owned

theorem unthawed_of_hibernate (id : CellId) (host : Host SimMachine) :
    host.machine.GoneOn (fun event => ∀ core, event ≠ .signal core .thaw)
      (Host.hibernate id host).state.machine := by
  refine Host.kept_hibernate (stable_goneOn fun core _ => ⟨?_, ?_⟩) ?_ goneOn_refl
  · simp
  · simp
  · exact keeps_goneOn_copy _ (by simp)

section Begun

variable (hsound : config.IsSound) (hsplit : topology.IsSplit)
  (hsave : Image.blockCount (config.cells.get shared.coordinator.active).memory.size
    config.blockSize < UInt32.size)
  (hload : (shared.host.cells.get shared.coordinator.active.other).hasImage = true →
    Image.blockCount (config.cells.get shared.coordinator.active.other).memory.size
      config.blockSize < UInt32.size)
  (hlaid : shared.host.cells.Laid config topology) (ready : shared.Open)

include hsound hsplit hsave hlaid ready

theorem ends_of_first {outcome : Outcome Unit} {host : Host SimMachine} {log : List Notice}
    (hibernate : Host.hibernate shared.coordinator.active shared.host = ⟨outcome, host, log⟩) :
    host.machine.clock.toNat ≤
        shared.host.machine.clock.toNat + config.freezeTimeout.toNat + 20 ∧
      Ending (shared.host.cells.get shared.coordinator.active).cores
        (shared.host.machine.clock.toNat + config.freezeTimeout.toNat + 20)
        host.machine.clock outcome := by
  have hending := hibernate_ending hsound hsplit hsave hlaid ready.running
  rw [hibernate] at hending
  exact hending

include hload in
/-- How the second step of a switch ends, and that it leaves the first cell as it is. -/
theorem ends_of_second {outcome : Outcome Unit} {between host : Host SimMachine}
    {log resumeLog : List Notice}
    (hibernate : Host.hibernate shared.coordinator.active shared.host = ⟨.ok (), between, log⟩)
    (resume : Host.resume shared.coordinator.active.other between =
      ⟨outcome, host, resumeLog⟩) :
    host.machine.clock.toNat ≤
        shared.host.machine.clock.toNat + 2 * config.freezeTimeout.toNat + 40 ∧
      Ending (shared.host.cells.get shared.coordinator.active.other).cores
        (shared.host.machine.clock.toNat + 2 * config.freezeTimeout.toNat + 40)
        host.machine.clock outcome ∧
      host.cells.state shared.coordinator.active = .hibernated := by
  have hfirst := (ends_of_first hsound hsplit hsave hlaid ready hibernate).1
  have hblank := Host.blank_hibernate shared.coordinator.active shared.host
  have hother := Host.get_other_hibernate shared.coordinator.active shared.host
  rw [hibernate] at hblank hother
  have hending := resume_ending hsound hsplit (by rw [hother]; exact hload)
    (hlaid.of_blank_eq hblank) (ready.ready_between hibernate)
  rw [resume, hother] at hending
  obtain ⟨hsecond, hend⟩ := hending
  dsimp only at hsecond hend
  refine ⟨by omega, ?_, Host.hibernated_of_resume_other hibernate resume⟩
  cases hend with
  | succeeded => exact .succeeded
  | failed cause => exact .failed cause
  | halted inTime spent => exact .halted (by omega) spent

end Begun

/-- What a switch has to count are the blocks of the active cell, and those of the image of the
other one. -/
theorem turnout_of_counts (hsound : config.IsSound) (hsplit : topology.IsSplit)
    (hsave : Image.blockCount (config.cells.get shared.coordinator.active).memory.size
      config.blockSize < UInt32.size)
    (hload : (shared.host.cells.get shared.coordinator.active.other).hasImage = true →
      Image.blockCount (config.cells.get shared.coordinator.active.other).memory.size
        config.blockSize < UInt32.size)
    (hlaid : shared.host.cells.Laid config topology) :
    Turnout config shared (switch shared).outcome (switch shared).state := by
  have hother := Host.get_other_hibernate shared.coordinator.active shared.host
  have hthaw := unthawed_of_hibernate shared.coordinator.active shared.host
  have hcases := switch_cases shared
  generalize switch shared = reply at hcases ⊢
  cases hcases with
  | refused closed => exact .refused closed
  | targetless running hibernated empty => exact .targetless running hibernated empty
  | hibernateHalted ready hibernate =>
    obtain ⟨hclock, hend⟩ := ends_of_first hsound hsplit hsave hlaid ready hibernate
    cases hend with
    | halted inTime spent => exact .halted ready (by dsimp only; omega) (.inl spent)
  | aborted ready hibernate =>
    obtain ⟨-, hend⟩ := ends_of_first hsound hsplit hsave hlaid ready hibernate
    rw [hibernate] at hother hthaw
    cases hend with
    | failed cause =>
      exact .aborted ready cause (Host.state_of_hibernate_error ready.running hibernate) hother
        hthaw rfl rfl rfl
  | resumeHalted ready hibernate resume =>
    obtain ⟨hclock, hend, -⟩ := ends_of_second hsound hsplit hsave hload hlaid ready hibernate
      resume
    cases hend with
    | halted inTime spent => exact .halted ready hclock (.inl spent)
  | failed ready hibernate resume =>
    obtain ⟨-, hend, hslept⟩ := ends_of_second hsound hsplit hsave hload hlaid ready hibernate
      resume
    have hbroken := Host.state_of_resume_error (ready.ready_between hibernate) resume
    cases hend with
    | failed cause => exact .failed ready cause hslept hbroken rfl rfl rfl
  | uncounted ready hibernate resume count =>
    obtain ⟨hclock, -⟩ := ends_of_second hsound hsplit hsave hload hlaid ready hibernate
      resume
    exact .halted ready hclock (.inr (Word.add?_eq_none_iff.1 count))
  | clockless ready hibernate resume count clock =>
    obtain ⟨hclock, -⟩ := ends_of_second hsound hsplit hsave hload hlaid ready hibernate
      resume
    exact .halted ready hclock (.inl (now_eq_none.1 clock))
  | completed ready hibernate resume count clock =>
    obtain ⟨-, -, hslept⟩ := ends_of_second hsound hsplit hsave hload hlaid ready hibernate
      resume
    have hwoke := Host.state_of_resume_ok resume
    obtain ⟨-, rfl⟩ := now_eq_some.1 clock
    exact .completed ready hslept hwoke rfl (Word.toNat_add? count) rfl

theorem turnout_of_switch (hsound : config.IsSound) (hsplit : topology.IsSplit)
    (hblocks : ∀ id,
      Image.blockCount (config.cells.get id).memory.size config.blockSize < UInt32.size)
    (hlaid : shared.host.cells.Laid config topology) :
    Turnout config shared (switch shared).outcome (switch shared).state :=
  turnout_of_counts hsound hsplit (hblocks _) (fun _ => hblocks _) hlaid

end Turnout

/-! ## Afterwards -/

def Stuck (shared : SharedHost SimMachine) : Prop :=
  shared.host.cells.state shared.coordinator.active = .error ∨
    shared.host.cells.state shared.coordinator.active.other = .error

theorem Stuck.switch_eq {shared : SharedHost SimMachine} (h : shared.Stuck) :
    switch shared =
      ⟨.error .invalidState, shared,
        [.switchRefused shared.coordinator.active
          (shared.host.cells.state shared.coordinator.active)
          (shared.host.cells.state shared.coordinator.active.other)]⟩ := by
  have hcases := switch_cases shared
  have hopen : ¬ shared.Open := fun ready => by
    rcases h with h | h
    · rw [ready.running] at h
      cases h
    · rw [ready.hibernated] at h
      cases h
  generalize switch shared = reply at hcases ⊢
  cases hcases with
  | refused => rfl
  | targetless running hibernated =>
    rcases h with h | h
    · rw [running] at h
      cases h
    · rw [hibernated] at h
      cases h
  | hibernateHalted ready | aborted ready | resumeHalted ready | failed ready
  | uncounted ready | clockless ready | completed ready => exact absurd ready hopen

theorem keeps_stuck (operation : Operation) : Action.Keeps Stuck operation.act := by
  intro shared h
  cases operation with
  | cells operation =>
    rcases h with h | h
    · exact .inl (Host.Operation.keeps_error _ operation shared.host h)
    · exact .inr (Host.Operation.keeps_error _ operation shared.host h)
  | publish => exact h
  | switch =>
    show Stuck (SharedHost.switch.discard shared).state
    rw [Action.state_discard, h.switch_eq]
    exact h

/-- How a switch of the cells of an accepted configuration, under a detected topology, turns out;
and that after one that was begun and went wrong no switch is taken up again, whatever is done. -/
theorem switch_turnout {σ : Type} {state : σ} {config : Config} {topology : Topology}
    {leaves : Leaves} (hvalid : config.validate = .ok ())
    (hprobe : (Topology.probe leaves config.linuxCores state).outcome = .ok topology)
    (hblocks : ∀ id,
      Image.blockCount (config.cells.get id).memory.size config.blockSize < UInt32.size)
    {shared : SharedHost SimMachine} (hlaid : shared.host.cells.Laid config topology) :
    Turnout config shared (switch shared).outcome (switch shared).state ∧
      (shared.Open → ∀ error, (switch shared).outcome = .error error →
        ∀ operations, (switch (Operation.run operations (switch shared).state)).outcome =
            .error .invalidState ∧
          (switch (Operation.run operations (switch shared).state)).state =
            Operation.run operations (switch shared).state) := by
  have hturnout := turnout_of_switch (Config.isSound_of_validate hvalid)
    (Topology.isSplit_of_probe hprobe) hblocks hlaid
  refine ⟨hturnout, fun ready error herror operations => ?_⟩
  have hstuck : Stuck (switch shared).state := by
    rw [herror] at hturnout
    generalize (switch shared).state = after at hturnout ⊢
    cases hturnout with
    | refused closed =>
      rcases closed with h | h
      · exact absurd ready.running h
      · exact absurd ready.hibernated h
    | targetless _ _ empty =>
      rw [ready.owned] at empty
      cases empty
    | aborted _ _ broken _ _ active =>
      rw [← active] at broken
      exact .inl broken
    | failed _ _ _ broken active =>
      rw [← active] at broken
      exact .inr broken
  have hlater : Stuck (Operation.run operations (switch shared).state) :=
    Action.keeps_attemptEach keeps_stuck operations _ hstuck
  rw [Stuck.switch_eq hlater]
  exact ⟨rfl, rfl⟩

/-- The first copy fails, and the next switch is refused although copies succeed again. -/
theorem switch_turnout_compact :
    Turnout .compact (Operation.run [.cells .boot, .cells (.disturb (.failCopies 0))] compact)
      (.error .copyFailed)
      (switch (Operation.run [.cells .boot, .cells (.disturb (.failCopies 0))] compact)).state ∧
    (switch (Operation.run [.cells (.disturb (.failCopies 100)), .switch]
      (switch (Operation.run [.cells .boot, .cells (.disturb (.failCopies 0))]
        compact)).state)).outcome = .error .invalidState := by
  have hprobe : (Topology.probe (SimMachine.ofCores 4).leaf Config.compact.linuxCores ()).outcome =
      .ok .halved := by decide
  have hblocks : ∀ id, Image.blockCount (Config.compact.cells.get id).memory.size
      Config.compact.blockSize < UInt32.size := by
    intro id
    cases id <;> decide
  have hfailed : (switch (Operation.run [.cells .boot, .cells (.disturb (.failCopies 0))]
      compact)).outcome = .error .copyFailed := by decide +kernel
  obtain ⟨hturnout, hlater⟩ := switch_turnout validate_compact hprobe hblocks
    (Operation.laid_of_run .compact .halved (.ofCores 4) compact.coordinator
      [.cells .boot, .cells (.disturb (.failCopies 0))])
  have hready : (Operation.run [.cells .boot, .cells (.disturb (.failCopies 0))] compact).Open :=
    ⟨by decide +kernel, by decide +kernel, by decide +kernel⟩
  refine ⟨?_, (hlater hready .copyFailed hfailed [.cells (.disturb (.failCopies 100)), .switch]).1⟩
  rw [← hfailed]
  exact hturnout

end SharedHost
end CellVisor
