import CellVisor.Proofs.Cell.Endings
import CellVisor.Proofs.Exclusion.Calls
import CellVisor.Proofs.Iommu.Isolation
import CellVisor.Proofs.Switch.Turnout
import Mathlib.Algebra.Group.Nat.Even
import Mathlib.Data.List.Count

/-!
# CellVisor.Proofs.Switch.Published

The published status is that of the hypervisor whenever no call is under way, and what is published
on the way is consistent as well.

* `Snapshot.Possible`, `Snapshot.Precedes`: what a snapshot can show, alone and after another.
* `SharedHost.Settled`: what holds between the calls. `Settled.publishing` and `Settled.completing`
  keep it at each of the places where a switch publishes.
* `settled_switch`: a switch that returns keeps it, and one that halts publishes nothing amiss.
* `Hypervisor.Current`: the published status shows, part by part, what the hypervisor is like.
* `never_stale`: it does so in every run from the boot on, as long as no call has halted.
-/

namespace CellVisor

open SimMachine

/-! ## Snapshots -/

namespace Snapshot

/-- At most one cell runs, linux is active after an even number of switches only, and there is the
time of a last switch where there was one. -/
structure Possible (snapshot : Snapshot) : Prop where
  alone : ∀ id, (snapshot.cells.get id).state = .running →
    (snapshot.cells.get id.other).state ≠ .running
  counted : snapshot.runningCells ≤ 1
  turn : snapshot.active = .linux ↔ Even snapshot.switches.toNat
  timed : snapshot.lastSwitch.isSome = true ↔ 0 < snapshot.switches

/-- `later` counts no fewer switches, and its last one was no earlier. -/
structure Precedes (snapshot later : Snapshot) : Prop where
  switches : snapshot.switches ≤ later.switches
  lastSwitch : ∀ time, snapshot.lastSwitch = some time →
    ∃ latest, later.lastSwitch = some latest ∧ time ≤ latest

theorem Precedes.trans {first second third : Snapshot} (h : first.Precedes second)
    (h' : second.Precedes third) : first.Precedes third where
  switches := UInt64.le_trans h.switches h'.switches
  lastSwitch := by
    intro time hfirst
    obtain ⟨middle, hsecond, hle⟩ := h.lastSwitch time hfirst
    obtain ⟨latest, hthird, hle'⟩ := h'.lastSwitch middle hsecond
    exact ⟨latest, hthird, UInt64.le_trans hle hle'⟩

theorem runningCells_le_one {snapshot : Snapshot} {id : CellId}
    (idle : (snapshot.cells.get id).state ≠ .running) : snapshot.runningCells ≤ 1 := by
  refine Nat.le_of_lt_succ (List.countP_lt_length_iff.2
    ⟨snapshot.cells.get id, ?_, decide_eq_false idle⟩)
  cases id with
  | linux => exact List.mem_cons_self
  | windows => exact List.mem_cons_of_mem _ List.mem_cons_self

/-- Where one of the cells does not run, a snapshot of them shows at most one that does. -/
theorem possible_take {active : CellId} {switches : UInt64} {lastSwitch : Option UInt64}
    {isolation : Isolation} {iommu : IommuStatus} {cells : Cells} {id : CellId}
    (idle : cells.state id ≠ .running) (turn : active = .linux ↔ Even switches.toNat)
    (timed : lastSwitch.isSome = true ↔ 0 < switches) :
    (take active switches lastSwitch isolation iommu cells).Possible := by
  have hstate : ∀ cell, ((take active switches lastSwitch isolation iommu cells).cells.get
      cell).state = cells.state cell := fun cell => by cases cell <;> rfl
  refine ⟨fun cell hruns hother => ?_, @runningCells_le_one _ id ?_, turn, timed⟩
  · rw [hstate] at hruns hother
    rcases CellId.eq_or_eq_other id cell with rfl | rfl
    · exact idle hruns
    · exact idle hother
  · rw [hstate]
    exact idle

end Snapshot

namespace StatusBoard

variable {board : StatusBoard} {snapshot : Snapshot}

/-- All that was published is possible, and each snapshot precedes those after it. -/
structure Sound (board : StatusBoard) : Prop where
  possible : ∀ snapshot ∈ board.published, snapshot.Possible
  ordered : board.published.Pairwise Snapshot.Precedes

theorem published_eq (board : StatusBoard) :
    board.published = board.earlier.reverse ++ [board.latest] := List.reverse_cons

theorem sound_singleton (h : snapshot.Possible) : Sound { latest := snapshot } where
  possible := by
    intro published hpublished
    rw [published_eq] at hpublished
    rw [List.mem_singleton.1 hpublished]
    exact h
  ordered := List.pairwise_singleton _ _

theorem Sound.latest (h : board.Sound) : board.latest.Possible := by
  refine h.possible _ ?_
  rw [published_eq]
  simp

/-- What follows the latest snapshot follows all of them. -/
theorem Sound.publish (h : board.Sound) (possible : snapshot.Possible)
    (follows : board.latest.Precedes snapshot) : (board.publish snapshot).Sound where
  possible := by
    rw [published_publish]
    intro published hpublished
    rcases List.mem_append.1 hpublished with hbefore | hlast
    · exact h.possible published hbefore
    · rw [List.mem_singleton.1 hlast]
      exact possible
  ordered := by
    rw [published_publish]
    refine List.pairwise_append.2 ⟨h.ordered, List.pairwise_singleton _ _, ?_⟩
    intro before hbefore last hlast
    rw [List.mem_singleton.1 hlast]
    have hordered := h.ordered
    rw [published_eq] at hordered hbefore
    rcases List.mem_append.1 hbefore with hearlier | hlatest
    · exact ((List.pairwise_append.1 hordered).2.2 before hearlier board.latest
        (List.mem_singleton.2 rfl)).trans follows
    · rw [List.mem_singleton.1 hlatest]
      exact follows

end StatusBoard

/-! ## A switch -/

namespace SharedHost

/-- What holds between the calls: the latest snapshot shows the cells as they are, the cell that is
not active does not run, and the clock, by which the next switch is timed, is not behind the last
one. -/
structure Settled (shared : SharedHost SimMachine) : Prop where
  sound : shared.coordinator.board.Sound
  current : shared.coordinator.board.latest = shared.coordinator.snapshot shared.host.cells
  waits : shared.host.cells.state shared.coordinator.active.other ≠ .running
  clocked : ∀ time, shared.coordinator.lastSwitch = some time →
    time.toNat ≤ shared.host.machine.clock.toNat

section Settled

variable {shared : SharedHost SimMachine} {host : Host SimMachine}

theorem Settled.possible (h : shared.Settled) :
    (shared.coordinator.snapshot shared.host.cells).Possible := by
  rw [← h.current]
  exact h.sound.latest

/-- When the cells are started, the first snapshot is published. -/
theorem settled_ofCells {isolation : Isolation} {iommu : IommuStatus}
    (linux : host.cells.state .linux = .running)
    (windows : host.cells.state .windows ≠ .running) :
    Settled ⟨host, .ofCells host.cells isolation iommu⟩ := by
  have hactive : (Coordinator.ofCells host.cells isolation iommu).active = .linux :=
    Coordinator.active_ofCells linux
  have htimed : (none : Option UInt64).isSome = true ↔ (0 : UInt64) < 0 := by decide
  have hturn : (Coordinator.ofCells host.cells isolation iommu).active = .linux ↔
      Even (0 : UInt64).toNat := ⟨fun _ => ⟨0, rfl⟩, fun _ => hactive⟩
  refine ⟨StatusBoard.sound_singleton (Snapshot.possible_take windows hturn htimed), rfl, ?_,
    nofun⟩
  rw [hactive]
  exact windows

/-- What the cells have come to is published, with the same cell active. -/
theorem Settled.publishing (h : shared.Settled)
    (waits : host.cells.state shared.coordinator.active.other ≠ .running)
    (later : shared.host.machine.clock.toNat ≤ host.machine.clock.toNat) :
    (shared.publishing host).Settled where
  sound := by
    refine h.sound.publish (Snapshot.possible_take waits h.possible.turn h.possible.timed) ?_
    rw [h.current]
    exact ⟨UInt64.le_refl _, fun time htime => ⟨time, htime, UInt64.le_refl _⟩⟩
  current := rfl
  waits := waits
  clocked := fun time htime => Nat.le_trans (h.clocked time htime) later

/-- The other cell is made the active one, as one more switch, with the time of the clock. -/
theorem Settled.completing (h : shared.Settled) {now switches : UInt64} {timed : SimMachine}
    (waits : host.cells.state shared.coordinator.active ≠ .running)
    (later : shared.host.machine.clock.toNat ≤ host.machine.clock.toNat)
    (count : Word.add? shared.coordinator.switches 1 = some switches)
    (clock : Machine.now host.machine = some (now, timed)) :
    (shared.completing shared.coordinator.active.other now switches
      { host with machine := timed }).Settled := by
  obtain ⟨htime, rfl⟩ := now_eq_some.1 clock
  have hcount : switches.toNat = shared.coordinator.switches.toNat + 1 := Word.toNat_add? count
  -- the active cell and the parity of the switches change together
  have hturn : shared.coordinator.active.other = .linux ↔ Even switches.toNat := by
    have hbefore : shared.coordinator.active = .linux ↔
        Even shared.coordinator.switches.toNat := h.possible.turn
    rw [hcount, Nat.even_add_one, ← hbefore]
    cases shared.coordinator.active <;> decide
  have hpositive : 0 < switches := by
    rw [UInt64.lt_iff_toNat_lt, hcount]
    exact Nat.succ_pos _
  have hwaits : host.cells.state shared.coordinator.active.other.other ≠ .running := by
    rw [CellId.other_other]
    exact waits
  refine ⟨h.sound.publish (Snapshot.possible_take hwaits hturn ⟨fun _ => hpositive,
    fun _ => rfl⟩) ?_, rfl, hwaits, ?_⟩
  · rw [h.current]
    refine ⟨?_, fun time htime => ⟨now, rfl, ?_⟩⟩
    · show shared.coordinator.switches ≤ switches
      rw [UInt64.le_iff_toNat_le]
      omega
    · have hbefore := h.clocked time htime
      rw [UInt64.le_iff_toNat_le]
      omega
  · rintro time htime
    cases htime
    exact Nat.le_refl _

/-- The first step of a switch leaves the other cell to wait. -/
theorem Settled.hibernating (h : shared.Settled) (ready : shared.Open) {outcome : Outcome Unit}
    {log : List Notice}
    (hibernate : Host.hibernate shared.coordinator.active shared.host = ⟨outcome, host, log⟩) :
    (shared.publishing host).Settled := by
  have hother := Host.get_other_hibernate shared.coordinator.active shared.host
  rw [hibernate] at hother
  refine h.publishing ?_ ((clock_ge_hibernate _ _).of_eq (Nat.le_refl _) hibernate)
  rw [Cells.state, hother]
  show shared.host.cells.state shared.coordinator.active.other ≠ .running
  rw [ready.hibernated]
  decide

/-- A switch that returns leaves everything settled, and all that any switch publishes is sound. -/
theorem settled_switch (h : shared.Settled) :
    (switch shared).state.coordinator.board.Sound ∧
      ((switch shared).Returned → (switch shared).state.Settled) := by
  have hcases := switch_cases shared
  generalize switch shared = reply at hcases ⊢
  cases hcases with
  | refused | targetless => exact ⟨h.sound, fun _ => h⟩
  | hibernateHalted => exact ⟨h.sound, fun returned => absurd rfl (returned _)⟩
  | aborted ready hibernate =>
    have hbetween := h.hibernating ready hibernate
    exact ⟨hbetween.sound, fun _ => hbetween⟩
  | resumeHalted ready hibernate | uncounted ready hibernate | clockless ready hibernate =>
    -- only what the first step has come to was published
    exact ⟨(h.hibernating ready hibernate).sound, fun returned => absurd rfl (returned _)⟩
  | @failed _ _ host _ _ ready hibernate resume =>
    have hwaits : host.cells.state shared.coordinator.active.other ≠ .running := by
      rw [Host.state_of_resume_error (ready.ready_between hibernate) resume]
      decide
    have hlast := (h.hibernating ready hibernate).publishing hwaits
      ((clock_ge_resume _ _).of_eq (Nat.le_refl _) resume)
    exact ⟨hlast.sound, fun _ => hlast⟩
  | @completed _ host _ _ _ _ _ ready hibernate resume count clock =>
    have hwaits : host.cells.state shared.coordinator.active ≠ .running := by
      rw [Host.hibernated_of_resume_other hibernate resume]
      decide
    have hlast := (h.hibernating ready hibernate).completing hwaits
      ((clock_ge_resume _ _).of_eq (Nat.le_refl _) resume) count clock
    exact ⟨hlast.sound, fun _ => hlast⟩

/-- What is published stays on the board. -/
theorem keeps_published_switch (before : List Snapshot) :
    Action.Keeps (fun shared : SharedHost SimMachine =>
      before <+: shared.coordinator.board.published) switch := by
  have hpublish : ∀ (shared : SharedHost SimMachine) (host : Host SimMachine),
      before <+: shared.coordinator.board.published →
        before <+: (shared.publishing host).coordinator.board.published := by
    intro shared host h
    show before <+: (shared.coordinator.board.publish _).published
    rw [StatusBoard.published_publish]
    exact h.trans (List.prefix_append _ _)
  intro shared h
  have hcases := switch_cases shared
  generalize switch shared = reply at hcases ⊢
  cases hcases with
  | refused | targetless | hibernateHalted => exact h
  | aborted | resumeHalted | uncounted | clockless => exact hpublish _ _ h
  | failed | completed => exact hpublish _ _ (hpublish _ _ h)

end Settled
end SharedHost

/-! ## The hypervisor -/

namespace Hypervisor

/-- The published status shows the hypervisor as it is: the active cell, the state, the number of
cores and the blocks of each cell, the record of the switches, and how the devices are confined. -/
structure Current {M : Type} (hypervisor : Hypervisor M) : Prop where
  active : hypervisor.status.active = hypervisor.activeCell
  state : ∀ id, (hypervisor.status.cells.get id).state = (hypervisor.cells.get id).state
  cores : ∀ id, (hypervisor.status.cells.get id).cores.toNat =
    (hypervisor.cells.get id).cores.stop.toNat - (hypervisor.cells.get id).cores.start.toNat
  blocks : ∀ id, (hypervisor.status.cells.get id).blocks = (hypervisor.cells.get id).blocks
  switches : hypervisor.status.switches = hypervisor.coordinator.switches
  lastSwitch : hypervisor.status.lastSwitch = hypervisor.coordinator.lastSwitch
  isolation : hypervisor.status.isolation = hypervisor.isolation
  isolation_eq : hypervisor.isolation = hypervisor.directory.isolation
  iommu : hypervisor.status.iommu = hypervisor.directory.status
  devices : hypervisor.directory.Shown hypervisor.status.isolation hypervisor.status.iommu

/-- The coordinator knows whether and how the devices are confined. -/
structure Informed {M : Type} (hypervisor : Hypervisor M) : Prop where
  devices : hypervisor.isolation = hypervisor.directory.isolation
  isolation : hypervisor.coordinator.isolation = hypervisor.isolation
  iommu : hypervisor.coordinator.iommu = hypervisor.directory.status

section Informed

variable {config : Config} {machine : SimMachine} {hypervisor : Hypervisor SimMachine}

theorem Informed.current (h : hypervisor.Informed) (settled : hypervisor.shared.Settled) :
    hypervisor.Current := by
  have hstatus : hypervisor.status = hypervisor.coordinator.snapshot hypervisor.cells :=
    settled.current
  have hcell : ∀ id, hypervisor.status.cells.get id = .ofCell (hypervisor.cells.get id) := by
    intro id
    rw [hstatus]
    exact PerCell.get_of _ id
  have hisolation : hypervisor.status.isolation = hypervisor.isolation := by
    rw [hstatus]
    exact h.isolation
  have hiommu : hypervisor.status.iommu = hypervisor.directory.status := by
    rw [hstatus]
    exact h.iommu
  exact
    { active := by rw [hstatus]; rfl
      state := fun id => by rw [hcell]; rfl
      cores := fun id => by rw [hcell]; exact CoreRange.toNat_size _
      blocks := fun id => by rw [hcell]; rfl
      switches := by rw [hstatus]; rfl
      lastSwitch := by rw [hstatus]; rfl
      isolation := hisolation
      isolation_eq := h.devices
      iommu := hiommu
      devices := by
        rw [hisolation, h.devices, hiommu]
        exact hypervisor.directory.shown }

/-- To move a device changes the owners of the groups only. -/
theorem keeps_assign {P : Isolation → IommuStatus → Prop} (address : Pci.Address)
    (owner : CellId) :
    Action.Keeps (fun directory => P directory.isolation directory.status)
      (Directory.assign address owner) := by
  unfold Directory.assign
  refine Action.Keeps.bind (fun _ h => h) fun directory => ?_
  split
  · exact Action.keeps_fail _
  · split
    · exact (Action.keeps_note _).bind fun _ _ h => h
    · exact Action.keeps_pure ()

theorem informed_switch (h : hypervisor.Informed) :
    (switch hypervisor).state.Informed := by
  have hkept : (SharedHost.switch hypervisor.shared).state.coordinator.isolation =
        hypervisor.coordinator.isolation ∧
      (SharedHost.switch hypervisor.shared).state.coordinator.iommu =
        hypervisor.coordinator.iommu := by
    have hcases := SharedHost.switch_cases hypervisor.shared
    generalize SharedHost.switch hypervisor.shared = reply at hcases ⊢
    cases hcases <;> exact ⟨rfl, rfl⟩
  exact ⟨h.devices, hkept.1.trans h.isolation, hkept.2.trans h.iommu⟩

theorem informed_act (call : Call) : Action.Keeps Informed call.act := by
  intro hypervisor h
  cases call with
  | switch =>
    rw [Call.act, Action.state_discard]
    exact informed_switch h
  | handle event =>
    rw [Call.act, handle_eq, Action.state_discard]
    exact informed_switch h
  | reassign address target =>
    refine keeps_reassign (P := Informed) (fun hypervisor h => ?_) hypervisor h
    have hassigned := keeps_assign (P := fun isolation status =>
      hypervisor.isolation = isolation ∧ hypervisor.coordinator.iommu = status) address target
      hypervisor.directory ⟨h.devices, h.iommu⟩
    exact ⟨hassigned.1, h.isolation, hassigned.2⟩
  | allocate size =>
    rw [Call.act, Action.state_discard]
    exact ⟨h.devices, h.isolation, h.iommu⟩
  | disturb disturbance => exact ⟨h.devices, h.isolation, h.iommu⟩

theorem settled_act (call : Call) (h : hypervisor.shared.Settled) :
    (call.act hypervisor).state.coordinator.board.Sound ∧
      ((call.act hypervisor).Returned → (call.act hypervisor).state.shared.Settled) := by
  unfold coordinator
  rcases shared_act call hypervisor with hsame | ⟨disturbance, hdisturbed⟩ | ⟨hswitched, hreturned⟩
  · rw [hsame]
    exact ⟨h.sound, fun _ => h⟩
  · rw [hdisturbed]
    refine ⟨h.sound, fun _ => ⟨h.sound, h.current, h.waits, ?_⟩⟩
    intro time htime
    show time.toNat ≤ (disturbance.apply hypervisor.shared.host.machine).clock.toNat
    rw [Sim.Disturbance.clock_apply]
    exact h.clocked time htime
  · rw [hswitched]
    have hswitch := SharedHost.settled_switch h
    exact ⟨hswitch.1, fun returned => hswitch.2 (hreturned returned)⟩

theorem settled_of_boot (h : (boot config machine).outcome = .ok hypervisor) :
    hypervisor.shared.Settled ∧ hypervisor.Informed := by
  obtain ⟨-, hisolation, hcoordinator, -⟩ := parts_of_boot h
  obtain ⟨-, linux, windows⟩ := turn_of_boot h
  have hshared : hypervisor.shared = ⟨hypervisor.shared.host, _⟩ :=
    congrArg (SharedHost.mk hypervisor.shared.host) hcoordinator
  refine ⟨?_, hisolation, ?_, ?_⟩
  · rw [hshared]
    exact SharedHost.settled_ofCells linux windows
  · rw [hcoordinator]
    rfl
  · rw [hcoordinator]
    rfl

/-- The published status is never out of date and never impossible. After a boot, whatever is asked
of the hypervisor and done to its machine: as long as no call has halted, the status is that of the
hypervisor. Even where one has, all that was published before is still on the board, and every
snapshot there shows at most one running cell, linux active after an even number of switches only,
the time of a last switch where there was one, and no fewer switches and no earlier last one than
any snapshot before it. -/
theorem never_stale (calls : List Call)
    (booted : (boot config machine).outcome = .ok hypervisor) :
    hypervisor.coordinator.board.published <+:
        (Action.attemptEach Call.act calls hypervisor).state.coordinator.board.published ∧
      (Action.attemptEach Call.act calls hypervisor).state.coordinator.board.Sound ∧
      ((Action.attemptEach Call.act calls hypervisor).Returned →
        (Action.attemptEach Call.act calls hypervisor).state.Current) := by
  obtain ⟨hsettled, hinformed⟩ := settled_of_boot booted
  have hrun := Action.kept_of_attemptEach
    (P := fun hypervisor : Hypervisor SimMachine => hypervisor.shared.Settled)
    (Q := fun hypervisor => hypervisor.coordinator.board.Sound)
    (fun call _ => settled_act call) (fun _ h => h.sound) calls hsettled
  have hlast := Action.keeps_attemptEach informed_act calls hypervisor hinformed
  have hkeeps := keeps_shared
    (SharedHost.keeps_published_switch hypervisor.coordinator.board.published) fun _ _ h => h
  have hgrown := Action.keeps_attemptEach hkeeps calls hypervisor (List.prefix_refl _)
  exact ⟨hgrown, hrun.1, fun returned => hlast.current (hrun.2 returned)⟩

/-- A switch to windows, and one back in which the copy of the image of linux fails: each publishes
its two steps, and the last snapshot shows what has become of the cells. -/
theorem never_stale_compact :
    ∃ hypervisor after, (boot .compact (SimMachine.ofCores 4)).outcome = .ok hypervisor ∧
      (Action.attemptEach Call.act [.switch, .disturb (.failCopies 4), .switch]
        hypervisor).state = after ∧
      after.coordinator.board.published.length = 5 ∧
      after.status =
        { active := .windows
          cells := ⟨⟨.error, 2, 4⟩, ⟨.hibernated, 2, 4⟩⟩
          switches := 1
          lastSwitch := some 40
          isolation := .degraded
          iommu := .notDetected } ∧
      after.coordinator.board.Sound ∧ after.Current := by
  have hboots : (match (boot .compact (SimMachine.ofCores 4)).outcome with
      | .ok hypervisor =>
        let reply := Action.attemptEach Call.act [.switch, .disturb (.failCopies 4), .switch]
          hypervisor
        decide (reply.outcome = .ok () ∧ reply.state.coordinator.board.published.length = 5 ∧
          reply.state.status =
            ⟨.windows, ⟨⟨.error, 2, 4⟩, ⟨.hibernated, 2, 4⟩⟩, 1, some 40, .degraded, .notDetected⟩)
      | _ => false) = true := by
    decide +kernel
  cases booted : (boot .compact (SimMachine.ofCores 4)).outcome with
  | ok hypervisor =>
    rw [booted] at hboots
    obtain ⟨hok, hlength, hstatus⟩ := of_decide_eq_true hboots
    obtain ⟨-, hsound, hcurrent⟩ :=
      never_stale [.switch, .disturb (.failCopies 4), .switch] booted
    refine ⟨hypervisor, _, rfl, rfl, hlength, hstatus, hsound, hcurrent fun fault hfault => ?_⟩
    rw [hok] at hfault
    cases hfault
  | error | fault =>
    rw [booted] at hboots
    cases hboots

end Informed
end Hypervisor
end CellVisor
