import CellVisor.Proofs.Agreement

/-!
# CellVisor.Proofs.Exclusion.Bystander

What the other cell does when a cell is resumed by itself, outside a switch.

* `paired_act`: a cell that has run and one that was never started do not stand side by side.
* `isParked_of_error`: the cores of a cell that is out of order stay where they are.
* `resume_beside`: so beside a cell that is resumed the other one sleeps with all its cores parked,
  or is out of order with its cores where they were when it failed.
* `resume_beside_running`: these need not be parked. The refusal of `Host.resume` looks at the state
  of the other cell alone, and a freeze that times out leaves the late core going on.
-/

namespace CellVisor

open SimMachine

/-! ## Beside a cell that was started -/

/-- Beside a cell that runs or sleeps, the other one has been started as well. -/
def Paired (cells : Cells) : Prop :=
  ∀ id, cells.state id = .running ∨ cells.state id = .hibernated →
    cells.state id.other ≠ .initializing

section Paired

variable {config : Config} {topology : Topology} {host : Host SimMachine} {cells : Cells}
  {id : CellId}

theorem paired_fresh : Paired (.fresh config topology) := by
  intro id h
  cases id <;> simp [Cells.state, Cells.fresh, Cells.get, Cell.fresh, PerCell.of, PerCell.get] at h

/-- A change to a cell that was started leaves the cells paired, if it does not undo the start. -/
theorem Paired.of_step {after : Cells} (h : Paired cells)
    (started : cells.state id = .running ∨ cells.state id = .hibernated)
    (hother : after.get id.other = cells.get id.other)
    (hown : after.state id ≠ .initializing) : Paired after := by
  intro cell _
  rcases CellId.eq_or_eq_other cell id with rfl | rfl
  · rw [Cells.state, hother]
    exact h cell started
  · rw [CellId.other_other]
    exact hown

theorem paired_hibernate (h : Paired host.cells) (id : CellId) :
    Paired (Host.hibernate id host).state.cells := by
  have hother := Host.get_other_hibernate id host
  have hcases := Host.hibernate_cases id host
  generalize Host.hibernate id host = reply at hcases hother ⊢
  cases hcases with
  | refused | freezeHalted => exact h
  | unfrozen running | crowded running => exact h.of_step (.inl running) hother (by simp)
  | copyHalted running =>
    refine h.of_step (.inl running) hother ?_
    rw [Cells.state_set_self]
    show host.cells.state id ≠ _
    simp [running]
  | uncopied running | hibernated running => exact h.of_step (.inl running) hother (by simp)

theorem paired_resume (h : Paired host.cells) (id : CellId) :
    Paired (Host.resume id host).state.cells := by
  have hother := Host.get_other_resume id host
  have hcases := Host.resume_cases id host
  generalize Host.resume id host = reply at hcases hother ⊢
  cases hcases with
  | refused | contended | coreless | copyHalted | thawHalted => exact h
  | uncopied ready | unthawed ready | resumed ready =>
    exact h.of_step (.inr ready.hibernated) hother (by simp)

theorem paired_boot (h : Paired host.cells) (returned : (Host.boot host).Returned) :
    Paired (Host.boot host).state.cells := by
  have hcases := Host.boot_cases host
  generalize Host.boot host = reply at hcases returned ⊢
  cases hcases with
  | refused => exact h
  | halted => exact absurd rfl (returned _)
  | unparked | parked =>
    intro id _
    cases id with
    | linux => simp [CellId.other]
    | windows =>
      rw [CellId.other, Cells.state_moveTo_of_ne _ (by decide)]
      simp

theorem paired_act (h : Paired host.cells) (operation : Host.Operation)
    (returned : (operation.act host).Returned) : Paired (operation.act host).state.cells := by
  cases operation with
  | boot => exact paired_boot h returned
  | hibernate id => exact paired_hibernate h id
  | resume id => exact paired_resume h id
  | disturb => exact h
  | fail id =>
    have hbroken := Host.state_markFailed id host
    show Paired (Host.markFailed id host).state.cells
    intro cell hcell
    rcases CellId.eq_or_eq_other cell id with rfl | rfl
    · rw [hbroken] at hcell
      simp at hcell
    · rw [CellId.other_other, hbroken]
      simp

end Paired

/-! ## Out of order -/

section Error

variable {config : Config} {topology : Topology} {host after : Host SimMachine} {id : CellId}

/-- No operation moves a core of a cell that is out of order. -/
theorem isParked_of_error (hsplit : topology.IsSplit) (hlaid : host.cells.Laid config topology)
    (broken : host.cells.state id = .error) (operation : Host.Operation) {core : UInt32}
    (hcore : (topology.ranges.get id).contains core = true) :
    (operation.act host).state.machine.isParked core = host.machine.isParked core := by
  -- what is done to the cell itself is refused, and what is done to the other one is elsewhere
  have beside : ∀ cell, operation.cell? = some cell → id = cell.other →
      (operation.act host).state.machine.isParked core = host.machine.isParked core := by
    rintro cell hoperation rfl
    exact (aloof_act operation hoperation host).other hsplit hlaid hcore
  cases operation with
  | boot =>
    have hcases := Host.boot_cases host
    show (Host.boot host).state.machine.isParked core = _
    generalize Host.boot host = reply at hcases ⊢
    cases hcases with
    | refused => rfl
    | halted linux windows | unparked linux windows | parked linux windows =>
      cases id with
      | linux => rw [broken] at linux; cases linux
      | windows => rw [broken] at windows; cases windows
  | hibernate cell =>
    rcases CellId.eq_or_eq_other id cell with rfl | hid
    · have hcases := Host.hibernate_cases id host
      show (Host.hibernate id host).state.machine.isParked core = _
      generalize Host.hibernate id host = reply at hcases ⊢
      cases hcases with
      | refused => rfl
      | freezeHalted running | unfrozen running | crowded running | copyHalted running
      | uncopied running | hibernated running => rw [broken] at running; cases running
    · exact beside cell rfl hid
  | resume cell =>
    rcases CellId.eq_or_eq_other id cell with rfl | hid
    · have hcases := Host.resume_cases id host
      show (Host.resume id host).state.machine.isParked core = _
      generalize Host.resume id host = reply at hcases ⊢
      cases hcases with
      | refused | contended | coreless => rfl
      | copyHalted ready | uncopied ready | thawHalted ready | unthawed ready | resumed ready =>
        have hibernated := ready.hibernated
        rw [broken] at hibernated
        cases hibernated
    · exact beside cell rfl hid
  | fail cell => exact congrArg (·.isParked core) (Host.machine_markFailed cell host)
  | disturb disturbance =>
    exact congrFun (Sim.Disturbance.isParked_apply disturbance host.machine) core

/-- Whatever is done after a cell has failed, its cores stay where they are. -/
theorem kept_of_error (hsplit : topology.IsSplit) (hlaid : host.cells.Laid config topology)
    (broken : host.cells.state id = .error)
    (later : Action.Reachable Host.Operation.act host after) :
    after.cells.Laid config topology ∧ after.cells.state id = .error ∧
      ∀ core, (topology.ranges.get id).contains core = true →
        after.machine.isParked core = host.machine.isParked core := by
  induction later with
  | start => exact ⟨hlaid, broken, fun _ _ => rfl⟩
  | step operation _ _ ih =>
    obtain ⟨hlaid', hbroken, hparked⟩ := ih
    refine ⟨Host.Operation.keeps_laid config topology operation _ hlaid',
      Host.Operation.keeps_error id operation _ hbroken, fun core hcore => ?_⟩
    rw [isParked_of_error hsplit hlaid' hbroken operation hcore]
    exact hparked core hcore

end Error

/-! ## Beside a cell that is resumed -/

section Beside

variable {config : Config} {topology : Topology} {machine : SimMachine} {host : Host SimMachine}
  {id : CellId}

theorem beside_of_ready {cells : Cells} (h : Paired cells) (ready : Host.Ready id cells) :
    cells.state id.other = .hibernated ∨ cells.state id.other = .error := by
  have halone := ready.alone
  have hstarted := h id (.inr ready.hibernated)
  cases hstate : cells.state id.other with
  | initializing => exact absurd hstate hstarted
  | running => exact absurd hstate halone
  | hibernated => exact .inl rfl
  | error => exact .inr rfl

theorem ready_of_resume_ok (h : (Host.resume id host).outcome = .ok ()) :
    Host.Ready id host.cells := by
  have hcases := Host.resume_cases id host
  generalize Host.resume id host = reply at hcases h
  cases hcases with
  | resumed ready => exact ready
  | refused | contended | coreless | copyHalted | uncopied | thawHalted | unthawed => cases h

theorem paired_of_reachable
    (h : Action.Reachable Host.Operation.act ⟨machine, .fresh config topology⟩ host) :
    Paired host.cells :=
  h.kept (P := fun host => Paired host.cells)
    (fun operation _ returned hpaired => paired_act hpaired operation returned) paired_fresh

/-- When a cell is resumed, in whatever comes of a fresh machine on which linux goes on, the other
one is hibernated, and then all its cores are parked; or it is out of order, and then its cores are
where they were at any time since it failed. -/
theorem resume_beside {σ : Type} {state : σ} {leaves : Leaves}
    (hprobe : (Topology.probe leaves config.linuxCores state).outcome = .ok topology)
    (unparked : NoneParked (topology.ranges.get .linux) machine.isParked)
    (reachable : Action.Reachable Host.Operation.act ⟨machine, .fresh config topology⟩ host)
    (resumed : (Host.resume id host).outcome = .ok ()) :
    (host.cells.state id.other = .hibernated ∧
        AllParked (topology.ranges.get id.other) (Host.resume id host).state.machine.isParked) ∨
      (host.cells.state id.other = .error ∧
        ∀ failed,
          Action.Reachable Host.Operation.act ⟨machine, .fresh config topology⟩ failed →
          failed.cells.state id.other = .error →
          Action.Reachable Host.Operation.act failed host →
          ∀ core, (topology.ranges.get id.other).contains core = true →
            (Host.resume id host).state.machine.isParked core = failed.machine.isParked core) := by
  have hsplit := Topology.isSplit_of_probe hprobe
  obtain ⟨hlaid, hagreeing⟩ := agreeing_of_reachable hsplit unparked reachable
  have hstays : ∀ core, (topology.ranges.get id.other).contains core = true →
      (Host.resume id host).state.machine.isParked core = host.machine.isParked core :=
    fun core hcore => (aloof_resume id host).other hsplit hlaid hcore
  rcases beside_of_ready (paired_of_reachable reachable) (ready_of_resume_ok resumed) with
    hibernated | broken
  · have hslept := hagreeing id.other
    rw [hibernated] at hslept
    refine .inl ⟨hibernated, fun core hcore => ?_⟩
    rw [hstays core hcore]
    exact hslept core hcore
  · refine .inr ⟨broken, fun failed earlier hfailed later core hcore => ?_⟩
    have hlaid' := (agreeing_of_reachable hsplit unparked earlier).1
    rw [hstays core hcore]
    exact (kept_of_error hsplit hlaid' hfailed later).2.2 core hcore

end Beside

/-- The compact configuration with little patience. -/
def Config.brisk : Config := { compact with freezeTimeout := 10 }

/-- Both cells sleep before windows is resumed. -/
theorem resume_beside_brisk :
    let host := Host.Operation.run [.boot, .hibernate .linux]
      ⟨.ofCores 4, .fresh .brisk .halved⟩
    (Host.resume .windows host).outcome = .ok () ∧
      AllParked (Topology.halved.ranges.get .linux)
        (Host.resume .windows host).state.machine.isParked := by
  intro host
  have hprobe : (Topology.probe (SimMachine.ofCores 4).leaf Config.brisk.linuxCores ()).outcome =
      .ok .halved := by decide
  have resumed : (Host.resume .windows host).outcome = .ok () := by decide +kernel
  have reachable : Action.Reachable Host.Operation.act ⟨.ofCores 4, .fresh .brisk .halved⟩ host :=
    Action.reachable_of_attemptEach (by decide +kernel)
  have slept : host.cells.state .linux = .hibernated := by decide +kernel
  refine ⟨resumed, ?_⟩
  rcases resume_beside hprobe (fun _ _ => rfl) reachable resumed with ⟨-, hparked⟩ | ⟨broken, -⟩
  · exact hparked
  · rw [show host.cells.state CellId.windows.other = .hibernated from slept] at broken
    cases broken

/-- Core 1 does not answer, so linux cannot be frozen; windows is resumed while core 1 goes on. -/
theorem resume_beside_running :
    Config.brisk.validate = .ok () ∧
      (Topology.probe (SimMachine.ofCores 4).leaf Config.brisk.linuxCores ()).outcome =
        .ok .halved ∧
      (∀ id, Image.blockCount (Config.brisk.cells.get id).memory.size Config.brisk.blockSize <
        UInt32.size) ∧
      (∀ core, (SimMachine.ofCores 4).isParked core = false) ∧
      ∃ host, Action.Reachable Host.Operation.act ⟨.ofCores 4, .fresh .brisk .halved⟩ host ∧
        (Host.resume .windows host).outcome = .ok () ∧
        (Topology.halved.ranges.get .linux).contains 1 = true ∧
        (Host.resume .windows host).state.machine.isParked 1 = false := by
  refine ⟨rfl, by decide, fun id => by cases id <;> decide, fun _ => rfl, ?_⟩
  exact ⟨Host.Operation.run [.boot, .disturb (.respond 1 false), .hibernate .linux]
      ⟨.ofCores 4, .fresh .brisk .halved⟩,
    Action.reachable_of_attemptEach (by decide +kernel), by decide +kernel, by decide,
    by decide +kernel⟩

end CellVisor
