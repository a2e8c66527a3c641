import CellVisor.Proofs.Iommu.Controller
import CellVisor.Sim.Machine

/-!
# CellVisor.Proofs.Iommu.Isolation

Whether the devices are said to be confined, and whether a controller confines them, whatever is
done to the directory and whatever becomes of the hardware between the calls.

* `Devices.Operation`: the calls, and any change of the machine between them.
* `Devices.Forgotten`: the one way in which the two come apart. A detection forgets the controller,
  and not that it was enforcing.
* `enforced_iff`: isolation is reported as enforced where the status is that of an enforcing
  controller, and after such a detection.
* `enforced_without_controller`: it does happen.
-/

namespace CellVisor

/-! ## What is reported -/

namespace Directory

variable {directory : Directory}

theorem isolation_eq_enforced : directory.isolation = .enforced ↔ directory.enforcing = true := by
  unfold isolation
  split <;> simp [*]

theorem status_eq_enforcing :
    directory.status = .enforcing ↔
      directory.controller.isSome = true ∧ directory.enforcing = true := by
  unfold status
  cases directory.controller with
  | none => simp
  | some controller =>
    cases directory.enforcing with
    | true => simp
    | false => cases directory.verificationFailed <;> simp

theorem status_eq_notDetected : directory.status = .notDetected ↔ directory.controller = none := by
  unfold status
  cases directory.controller with
  | none => simp
  | some controller =>
    cases directory.enforcing <;> cases directory.verificationFailed <;> simp

theorem status_eq_verificationFailed :
    directory.status = .verificationFailed ↔
      directory.controller.isSome = true ∧ directory.enforcing = false ∧
        directory.verificationFailed = true := by
  unfold status
  cases directory.controller with
  | none => simp
  | some controller =>
    cases directory.enforcing <;> cases directory.verificationFailed <;> simp

/-- The isolation and the status of a controller say what is known of it. -/
structure Shown (directory : Directory) (isolation : Isolation) (status : IommuStatus) : Prop where
  isolation : isolation = .enforced ↔ directory.enforcing = true
  notDetected : status = .notDetected ↔ directory.controller = none
  enforcing : status = .enforcing ↔
    directory.controller.isSome = true ∧ directory.enforcing = true
  verificationFailed : status = .verificationFailed ↔
    directory.controller.isSome = true ∧ directory.enforcing = false ∧
      directory.verificationFailed = true

theorem shown (directory : Directory) : directory.Shown directory.isolation directory.status where
  isolation := isolation_eq_enforced
  notDetected := status_eq_notDetected
  enforcing := status_eq_enforcing
  verificationFailed := status_eq_verificationFailed

end Directory

namespace Devices

variable {M : Type} [Board M]

/-! ## What is done -/

/-- What is asked of a directory, or done to its machine from outside. -/
inductive Operation (M : Type)
  | detect
  | setupGroups (config : Config)
  | enable
  | init (config : Config)
  | assign (address : Pci.Address) (owner : CellId)
  | disturb (change : M → M)

namespace Operation

def act : Operation M → Action (Devices M) Unit
  | detect => Devices.detect.discard
  | setupGroups config => (Devices.setupGroups config).discard
  | enable => Devices.enable
  | init config => (Devices.init config).discard
  | assign address owner => onDirectory (Directory.assign address owner)
  | disturb change =>
    Action.update fun devices => { devices with machine := change devices.machine }

/-- Whether an operation tries to switch enforcement on. -/
def enforces : Operation M → Bool
  | enable | init _ => true
  | detect | setupGroups _ | assign _ _ | disturb _ => false

end Operation

/-- What does not try to enforce looks for a controller, or has to do with the groups at most. -/
theorem Operation.act_cases {operation : Operation M} (untried : operation.enforces = false)
    (devices : Devices M) :
    operation = .detect ∨
      ∃ groups, (operation.act devices).state.directory = { devices.directory with groups } := by
  cases operation with
  | enable | init => cases untried
  | detect => exact .inl rfl
  | setupGroups config =>
    obtain ⟨groups, _, -, hstate⟩ := directory_setupGroups config devices
    refine .inr ⟨groups, ?_⟩
    rw [Operation.act, Action.state_discard, hstate]
  | assign address owner => exact .inr (Directory.state_assign address owner _)
  | disturb => exact .inr ⟨_, rfl⟩

/-- Where enforcement was tried it is on only if there is a controller. -/
theorem isSome_of_enforces {operation : Operation M} (tried : operation.enforces = true)
    (devices : Devices M) :
    (operation.act devices).state.directory.enforcing = true →
      (operation.act devices).state.directory.controller.isSome = true := by
  have henable : ∀ devices : Devices M,
      (Devices.enable devices).state.directory.enforcing = true →
        (Devices.enable devices).state.directory.controller.isSome = true := by
    intro devices
    have hcases := enable_cases devices
    generalize Devices.enable devices = reply at hcases ⊢
    cases hcases with
    | uncontrolled | unverified => exact fun h => absurd h Bool.false_ne_true
    | enforced controller present =>
      intro _
      rw [present]
      rfl
  cases operation with
  | enable => exact henable devices
  | init config =>
    obtain ⟨log, hinit⟩ := init_eq config devices
    rw [Operation.act, Action.state_discard, hinit]
    exact henable _
  | detect | setupGroups | assign | disturb => cases tried

/-! ## When it is wrong -/

/-- The devices were confined when a detection found no controller. Since then none has been found,
and it has not been tried to enforce anything. -/
inductive Forgotten (start : Devices M) : Devices M → Prop where
  | lost {devices : Devices M} (reachable : Action.Reachable Operation.act start devices)
      (confined : devices.directory.status = .enforcing)
      (unfound : (Devices.detect devices).outcome = .error (.unavailable .iommu)) :
      Forgotten start (Devices.detect devices).state
  | later {devices : Devices M} (operation : Operation M) (earlier : Forgotten start devices)
      (untried : operation.enforces = false)
      (unfound : (operation.act devices).state.directory.controller = none) :
      Forgotten start (operation.act devices).state

section Forgotten

variable {start devices : Devices M}

/-- A detection that finds nothing leaves enforcement as it is. -/
theorem detect_of_unfound
    (unfound : (Devices.detect devices).outcome = .error (.unavailable .iommu)) :
    (Devices.detect devices).state.directory = { devices.directory with controller := none } := by
  rw [detect_apply] at unfound ⊢
  have hcases := Directory.detect_cases (Board.configSpace devices.machine) devices.directory
  unfold onDirectory Action.zoom at unfound ⊢
  generalize Directory.detect (Board.configSpace devices.machine) devices.directory = reply
    at hcases unfound ⊢
  cases hcases with
  | found => cases unfound
  | absent => rfl

theorem detect_of_found (found : (Devices.detect devices).outcome ≠ .error (.unavailable .iommu)) :
    (Devices.detect devices).state.directory.controller.isSome = true := by
  rw [detect_apply] at found ⊢
  have hcases := Directory.detect_cases (Board.configSpace devices.machine) devices.directory
  unfold onDirectory Action.zoom at found ⊢
  generalize Directory.detect (Board.configSpace devices.machine) devices.directory = reply
    at hcases found ⊢
  cases hcases with
  | found => rfl
  | absent => exact absurd rfl found

/-- What is forgotten is still said to be enforced, and no controller is there. -/
theorem Forgotten.reported (h : Forgotten start devices) :
    devices.directory.isolation = .enforced ∧ devices.directory.status = .notDetected := by
  rw [Directory.isolation_eq_enforced, Directory.status_eq_notDetected]
  induction h with
  | lost _ confined unfound =>
    rw [detect_of_unfound unfound]
    exact ⟨(Directory.status_eq_enforcing.1 confined).2, rfl⟩
  | @later devices operation _ untried unfound ih =>
    refine ⟨?_, unfound⟩
    rcases Operation.act_cases untried devices with rfl | ⟨groups, hstate⟩
    · rw [Operation.act, Action.state_discard] at unfound ⊢
      by_cases hfound : (Devices.detect devices).outcome = .error (.unavailable .iommu)
      · rw [detect_of_unfound hfound]
        exact ih.1
      · have hsome := detect_of_found hfound
        rw [unfound] at hsome
        cases hsome
    · rw [hstate]
      exact ih.1

/-- Where enforcement is on there is a controller, or it has been forgotten. -/
theorem isSome_or_forgotten (hstart : start.directory.enforcing = false)
    (reachable : Action.Reachable Operation.act start devices)
    (enforcing : devices.directory.enforcing = true) :
    devices.directory.controller.isSome = true ∨ Forgotten start devices := by
  induction reachable with
  | start =>
    rw [hstart] at enforcing
    cases enforcing
  | @step operation devices earlier _ ih =>
    cases htried : operation.enforces with
    | true => exact .inl (isSome_of_enforces htried devices enforcing)
    | false =>
      rcases Operation.act_cases htried devices with rfl | ⟨groups, hstate⟩
      · rw [Operation.act, Action.state_discard] at enforcing ⊢
        by_cases hfound : (Devices.detect devices).outcome = .error (.unavailable .iommu)
        · have hdirectory := detect_of_unfound hfound
          rw [hdirectory] at enforcing
          refine .inr ?_
          rcases ih enforcing with hpresent | hforgotten
          · exact .lost earlier (Directory.status_eq_enforcing.2 ⟨hpresent, enforcing⟩) hfound
          · have hlater := hforgotten.later .detect rfl
            rw [Operation.act, Action.state_discard, hdirectory] at hlater
            exact hlater rfl
        · exact .inl (detect_of_found hfound)
      · rw [hstate] at enforcing ⊢
        refine (ih enforcing).imp_right fun hforgotten => hforgotten.later operation htried ?_
        rw [hstate]
        exact Directory.status_eq_notDetected.1 hforgotten.reported.2

/-- Isolation is reported as enforced exactly where the status is that of an enforcing controller,
and where such a controller has been forgotten. In that case no controller is known, and it lasts
until one is found, or until it is tried to enforce. -/
theorem enforced_iff {machine : M}
    (reachable : Action.Reachable Operation.act ⟨machine, {}⟩ devices) :
    (devices.directory.isolation = .enforced ↔
        devices.directory.status = .enforcing ∨ Forgotten ⟨machine, {}⟩ devices) ∧
      (Forgotten ⟨machine, {}⟩ devices → devices.directory.status = .notDetected) := by
  refine ⟨⟨fun enforced => ?_, ?_⟩, fun h => h.reported.2⟩
  · rw [Directory.isolation_eq_enforced] at enforced
    rw [Directory.status_eq_enforcing]
    exact (isSome_or_forgotten rfl reachable enforced).imp_left fun present => ⟨present, enforced⟩
  · rintro (enforcing | forgotten)
    · exact Directory.isolation_eq_enforced.2 (Directory.status_eq_enforcing.1 enforcing).2
    · exact forgotten.reported.1

end Forgotten

end Devices

/-- A machine of four cores with a remapping controller behind its host bridge. -/
def SimMachine.shielded : SimMachine :=
  (SimMachine.addController ⟨0, 0, 2⟩ 0xFEB80000 (.ofCores 4)).state

namespace Devices

/-- The controller is found and switched on, and nobody looks for it again. -/
theorem enforced_iff_shielded :
    ∃ devices : Devices SimMachine,
      Action.Reachable Operation.act ⟨.shielded, {}⟩ devices ∧
        devices.directory.isolation = .enforced ∧
        (devices.directory.status = .enforcing ∨ Forgotten ⟨.shielded, {}⟩ devices) := by
  have reachable : Action.Reachable Operation.act ⟨.shielded, {}⟩
      (Action.attemptEach Operation.act [.detect, .enable]
        (⟨.shielded, {}⟩ : Devices SimMachine)).state :=
    Action.reachable_of_attemptEach (by decide +kernel)
  have enforced : (Action.attemptEach Operation.act [.detect, .enable]
      (⟨.shielded, {}⟩ : Devices SimMachine)).state.directory.isolation = .enforced := by
    decide +kernel
  exact ⟨_, reachable, enforced, (enforced_iff reachable).1.1 enforced⟩

/-- The controller vanishes and is looked for again: nothing is found, and the devices are still
said to be confined. -/
theorem enforced_without_controller :
    ∃ devices : Devices SimMachine,
      Action.Reachable Operation.act ⟨.shielded, {}⟩ devices ∧
        devices.directory.isolation = .enforced ∧ devices.directory.enforcing = true ∧
        devices.directory.status = .notDetected ∧ devices.directory.controller = none := by
  refine ⟨(Action.attemptEach Operation.act [.detect, .enable,
      .disturb (SimMachine.configWrite ⟨0, 0, 2⟩ 0 0xFFFFFFFF), .detect]
      (⟨.shielded, {}⟩ : Devices SimMachine)).state, ?_, ?_⟩
  · exact Action.reachable_of_attemptEach (by decide +kernel)
  · decide +kernel

end Devices
end CellVisor
