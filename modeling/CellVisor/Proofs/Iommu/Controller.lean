import CellVisor.Proofs.Boot

/-!
# CellVisor.Proofs.Iommu.Controller

What the steps of the device set-up make of a directory and its machine.

* `Directory.detect_cases`: a detection finds a controller or forgets the one there was.
* `Devices.state_detect`, `Devices.state_setupGroups`: what a detection and a grouping leave.
* `Devices.enable_cases`: enforcement is switched on, refused for want of a controller, or does not
  read back.
* `Devices.init_eq`: the whole set-up is a detection, a grouping and an attempt to enforce, each of
  which may fail.
-/

namespace CellVisor

namespace Directory

/-- How a detection ends. -/
inductive Detected (directory : Directory) : Reply Directory Controller → Prop where
  | found (controller : Controller) (log : List Notice) :
      Detected directory
        ⟨.ok controller, { directory with controller := some controller }, log⟩
  | absent (log : List Notice) :
      Detected directory
        ⟨.error (.unavailable .iommu), { directory with controller := none }, log⟩

theorem detect_cases (space : Pci.ConfigSpace) (directory : Directory) :
    Detected directory (detect space directory) := by
  obtain ⟨log, hreply⟩ := detect_eq space directory
  rw [hreply]
  cases scanned space with
  | none => exact .absent log
  | some controller => exact .found controller log

end Directory

namespace Devices

variable {M : Type}

section Enable

variable [Mmio M]

/-- The machine once the enforcement bits were written to the register of a controller. -/
def switchedOn (controller : Controller) (machine : M) : M :=
  Mmio.mmioWrite controller.controlRegister
    (Mmio.mmioRead machine controller.controlRegister ||| Controller.enforcementBits) machine

/-- Whether the register of a controller has both enforcement bits. -/
def Enforces (controller : Controller) (machine : M) : Prop :=
  Mmio.mmioRead machine controller.controlRegister &&& Controller.enforcementBits =
    Controller.enforcementBits

/-- How an attempt to switch enforcement on ends. -/
inductive Enabled (devices : Devices M) : Reply (Devices M) Unit → Prop where
  | uncontrolled (absent : devices.directory.controller = none) :
      Enabled devices
        ⟨.error (.unavailable .iommu),
          { devices with directory := { devices.directory with enforcing := false } }, []⟩
  | enforced (controller : Controller) (present : devices.directory.controller = some controller)
      (latched : Enforces controller (switchedOn controller devices.machine)) :
      Enabled devices
        ⟨.ok (),
          ⟨switchedOn controller devices.machine,
            { devices.directory with enforcing := true, verificationFailed := false }⟩,
          [.enforcementEnabled]⟩
  | unverified (controller : Controller) (present : devices.directory.controller = some controller)
      (stuck : ¬ Enforces controller (switchedOn controller devices.machine)) :
      Enabled devices
        ⟨.error (.verificationFailure controller.controlRegister),
          ⟨switchedOn controller devices.machine,
            { devices.directory with enforcing := false, verificationFailed := true }⟩, []⟩

theorem enable_cases (devices : Devices M) : Enabled devices (enable devices) := by
  unfold enable
  rw [Action.bind_of_ok (Action.get_apply devices), Reply.after_nil]
  cases hknown : devices.directory.controller with
  | none => exact .uncontrolled hknown
  | some controller =>
    dsimp only
    rw [Action.bind_of_ok (Action.update_apply _ devices), Reply.after_nil]
    split
    · rename_i hlatched
      exact .enforced controller hknown hlatched
    · rename_i hstuck
      exact .unverified controller hknown hstuck

theorem groups_enable (devices : Devices M) :
    (enable devices).state.directory.groups = devices.directory.groups := by
  have hcases := enable_cases devices
  generalize enable devices = reply at hcases ⊢
  cases hcases <;> rfl

end Enable

theorem reporting_of_returned {α : Type} {action : Action (Devices M) α} {devices : Devices M}
    (returned : (action devices).Returned) (notice : Error → Notice) :
    ∃ log, reporting notice action devices = ⟨.ok (), (action devices).state, log⟩ := by
  unfold reporting
  cases hreply : action devices with
  | mk outcome after log =>
    cases outcome with
    | ok value => exact ⟨_, Action.bind_of_ok (Action.attempt_of_ok hreply)⟩
    | error error => exact ⟨_, Action.bind_of_ok (Action.attempt_of_error hreply)⟩
    | fault fault =>
      rw [hreply] at returned
      exact absurd rfl (returned fault)

variable [Board M]

theorem detect_apply (devices : Devices M) :
    detect devices =
      onDirectory (Directory.detect (Board.configSpace devices.machine)) devices := by
  unfold detect
  rw [Action.bind_of_ok (Action.get_apply devices), Reply.after_nil]

theorem setupGroups_apply (config : Config) (devices : Devices M) :
    setupGroups config devices =
      onDirectory
        (Directory.setupGroups (Board.configSpace devices.machine) config.ownerForVendor)
        devices := by
  unfold setupGroups
  rw [Action.bind_of_ok (Action.get_apply devices), Reply.after_nil]

theorem outcome_detect_eq_ok_iff {devices : Devices M} {controller : Controller} :
    (detect devices).outcome = .ok controller ↔
      Directory.scanned (Board.configSpace devices.machine) = some controller := by
  rw [detect_apply, onDirectory, Action.zoom_apply]
  exact Directory.outcome_detect_eq_ok_iff

/-- A detection leaves the controller that it has come to, and nothing else changes. -/
theorem state_detect (devices : Devices M) :
    (detect devices).state = { devices with directory := { devices.directory with
      controller := Directory.scanned (Board.configSpace devices.machine) } } := by
  obtain ⟨log, hreply⟩ :=
    Directory.detect_eq (Board.configSpace devices.machine) devices.directory
  rw [detect_apply, onDirectory, Action.zoom_apply, hreply]

/-- A grouping leaves the groups of the devices that are passed through, and nothing else
changes. -/
theorem state_setupGroups (config : Config) (devices : Devices M) :
    (setupGroups config devices).state = { devices with directory := { devices.directory with
      groups := Directory.groupEach 0
        ((Directory.passedThrough config.ownerForVendor
          (Board.configSpace devices.machine).functions).take Directory.maxGroups) } } := by
  obtain ⟨log, hreply⟩ := Directory.setupGroups_eq (Board.configSpace devices.machine)
    config.ownerForVendor devices.directory
  rw [setupGroups_apply, onDirectory, Action.zoom_apply, hreply]

/-- The groups are set up anew, and nothing else of the directory changes. -/
theorem directory_setupGroups (config : Config) (devices : Devices M) :
    ∃ groups addresses, Directory.Grouped groups addresses ∧
      (setupGroups config devices).state.directory = { devices.directory with groups } := by
  rw [setupGroups_apply]
  exact Directory.state_setupGroups _ _ devices.directory

/-- Whatever fails on the way, the set-up goes through all its steps, and gives the isolation that
it has come to. -/
theorem init_eq (config : Config) (devices : Devices M) :
    ∃ log, let last := (enable (setupGroups config (detect devices).state).state).state
      init config devices = ⟨.ok last.directory.isolation, last, log⟩ := by
  have hdetect : (detect devices).Returned := by
    rw [detect_apply]
    exact (Directory.returns_detect _ devices.directory trivial).1
  obtain ⟨log, hdetected⟩ := reporting_of_returned hdetect .detectionFailed
  have hgroups : (setupGroups config (detect devices).state).Returned := by
    rw [setupGroups_apply]
    exact (Directory.returns_setupGroups _ _ _ trivial).1
  obtain ⟨log', hgrouped⟩ := reporting_of_returned hgroups .groupingIncomplete
  have henable : (enable (setupGroups config (detect devices).state).state).Returned :=
    (returns_enable (P := fun _ => True) (fun _ _ _ h => h) _ trivial).1
  obtain ⟨log'', henabled⟩ := reporting_of_returned henable .enforcementFailed
  unfold init
  rw [Action.bind_of_ok hdetected, Action.bind_of_ok hgrouped, Action.bind_of_ok henabled,
    Action.bind_of_ok (Action.get_apply _)]
  dsimp only
  split
  · exact ⟨_, rfl⟩
  · exact ⟨_, rfl⟩

theorem grouped_init (config : Config) (devices : Devices M) :
    ∃ addresses, Directory.Grouped (init config devices).state.directory.groups addresses := by
  obtain ⟨log, hinit⟩ := init_eq config devices
  obtain ⟨groups, addresses, hgrouped, hstate⟩ :=
    directory_setupGroups config (detect devices).state
  refine ⟨addresses, ?_⟩
  rw [hinit, groups_enable, hstate]
  exact hgrouped

end Devices
end CellVisor
