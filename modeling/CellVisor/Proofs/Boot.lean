import CellVisor.Hypervisor
import CellVisor.Proofs.Cell.Frame
import CellVisor.Proofs.Completion
import CellVisor.Proofs.Cpu.Split
import CellVisor.Proofs.Iommu.Detection
import CellVisor.Proofs.Iommu.Groups

/-!
# CellVisor.Proofs.Boot

Booting any board: only an invalid configuration stops it before the cells are started.

* `completes_enable`, `completes_init`: features that are missing and devices that are not confined
  are no reason to fail.
* `boot_of_invalid`, `boot_of_valid`: an invalid configuration ends boot with its error, and with an
  accepted one boot is what comes of the start of the cells.
* `completes_boot`, `boot_ne_error`: so it completes where that does, and it does not fail.
* `staged_of_boot`, `turn_of_boot`: what a boot that completes has got from its stages, and that it
  gives linux the first turn.
-/

namespace CellVisor

/-! ## Features -/

namespace FeatureSet

theorem completes_enableOne {M : Type} {P : M → Prop} {switch : Action M Bool}
    (hswitch : Action.Completes P switch fun _ => P) (supported : Bool) (capability : Capability)
    (refused : Notice) :
    Action.Completes P (enableOne supported capability refused switch) fun _ => P := by
  unfold enableOne
  split
  · refine hswitch.bind fun enabled => ?_
    dsimp only
    split
    · exact (Action.completes_note _).bind fun _ => (Action.completes_note _).bind fun _ =>
        Action.completes_value enabled
    · exact Action.completes_value enabled
  · exact (Action.completes_note _).bind fun _ => Action.completes_value false

variable {M : Type} [Board M] {P : M → Prop}
  (hcontrol : ∀ register value machine, P machine → P (Board.writeControl register value machine))

include hcontrol

theorem completes_latch (register : ControlRegister) (bits : UInt64) :
    Action.Completes P (latch register bits) fun _ => P :=
  fun machine h => ⟨_, _, [], rfl, hcontrol _ _ machine h⟩

theorem completes_latchAvx : Action.Completes P latchAvx fun _ => P := by
  unfold latchAvx
  refine (completes_latch hcontrol _ _).bind fun enabled => ?_
  split
  · exact completes_latch hcontrol _ _
  · exact Action.completes_value _

theorem completes_enable : Action.Completes P enable fun _ => P := by
  unfold enable
  refine Action.completes_get.bind fun machine => ?_
  refine Action.Completes.bind (Q := fun _ => P) ?_ fun sse => ?_
  · intro state h
    exact completes_enableOne (completes_latch hcontrol _ _) _ _ _ state h.2
  refine (completes_enableOne (completes_latchAvx hcontrol) _ _ _).bind fun avx => ?_
  refine (completes_enableOne (completes_latch hcontrol _ _) _ _ _).bind fun nx => ?_
  exact (Action.completes_note _).bind fun _ => Action.completes_value _

end FeatureSet

/-! ## Devices -/

section Devices

namespace Directory

theorem returns_detect (space : Pci.ConfigSpace) :
    Action.Returns (fun _ => True) (detect space) := by
  intro directory _
  obtain ⟨log, hreply⟩ := detect_eq space directory
  rw [hreply]
  cases scanned space <;> exact ⟨by simp [Reply.Returned], trivial⟩

theorem returns_setupGroups (space : Pci.ConfigSpace) (ownerFor : UInt16 → Option CellId) :
    Action.Returns (fun _ => True) (setupGroups space ownerFor) := by
  intro directory _
  obtain ⟨log, hreply⟩ := setupGroups_eq space ownerFor directory
  rw [hreply]
  dsimp only
  split <;> exact ⟨by simp [Reply.Returned], trivial⟩

end Directory

namespace Devices

theorem completes_reporting {M α : Type} {S : Devices M → Prop} {action : Action (Devices M) α}
    (h : Action.Returns S action) (notice : Error → Notice) :
    Action.Completes S (reporting notice action) fun _ => S := by
  unfold reporting
  refine h.attempt.bind fun result => ?_
  cases result with
  | ok => exact Action.completes_value _
  | error error => exact Action.completes_note _

theorem returns_onDirectory {M α : Type} {P : M → Prop} {action : Action Directory α}
    (h : Action.Returns (fun _ => True) action) :
    Action.Returns (fun devices : Devices M => P devices.machine) (onDirectory action) :=
  h.zoom fun _ _ hdevices => hdevices

variable {M : Type} [Board M] {P : M → Prop}

theorem returns_enable
    (hmmio : ∀ address value machine, P machine → P (Mmio.mmioWrite address value machine)) :
    Action.Returns (fun devices : Devices M => P devices.machine) enable := by
  unfold enable
  intro devices h
  rw [Action.bind_of_ok (Action.get_apply devices), Reply.after_nil]
  have hmodify : ∀ change, Action.Returns (fun devices : Devices M => P devices.machine)
      (modifyDirectory change) := fun _ => (Action.completes_update fun _ h => h).returns
  generalize devices.directory.controller = known
  cases known with
  | none => exact ((hmodify _).bind fun _ => Action.returns_fail _) devices h
  | some controller =>
    dsimp only
    rw [Action.bind_of_ok (Action.update_apply _ devices), Reply.after_nil]
    have hwritten := hmmio controller.controlRegister
      (Mmio.mmioRead devices.machine controller.controlRegister ||| Controller.enforcementBits)
      devices.machine h
    split
    · exact ((hmodify _).bind fun _ => (Action.completes_note _).returns) _ hwritten
    · exact ((hmodify _).bind fun _ => Action.returns_fail _) _ hwritten

theorem completes_init
    (hmmio : ∀ address value machine, P machine → P (Mmio.mmioWrite address value machine))
    (config : Config) :
    Action.Completes (fun devices : Devices M => P devices.machine) (init config)
      fun isolation devices => isolation = devices.directory.isolation ∧ P devices.machine := by
  have hdetect : Action.Returns (fun devices : Devices M => P devices.machine) detect := by
    unfold detect
    exact Action.returns_get.bind fun _ => returns_onDirectory (Directory.returns_detect _)
  have hgroups : Action.Returns (fun devices : Devices M => P devices.machine)
      (setupGroups config) := by
    unfold setupGroups
    exact Action.returns_get.bind fun _ => returns_onDirectory (Directory.returns_setupGroups _ _)
  unfold init
  refine (completes_reporting hdetect _).bind fun _ => ?_
  refine (completes_reporting hgroups _).bind fun _ => ?_
  refine (completes_reporting (returns_enable hmmio) _).bind fun _ => ?_
  intro devices h
  rw [Action.bind_of_ok (Action.get_apply devices), Reply.after_nil]
  dsimp only
  split
  · exact ⟨_, devices, _, rfl, rfl, h⟩
  · exact ⟨_, devices, _, rfl, rfl, h⟩

end Devices
end Devices

/-! ## The whole -/

theorem Coordinator.active_ofCells {cells : Cells} {isolation : Isolation} {iommu : IommuStatus}
    (linux : cells.state .linux = .running) : (ofCells cells isolation iommu).active = .linux := by
  have hrunning : cells.running? = some .linux := List.find?_cons_of_pos (decide_eq_true linux)
  show cells.running?.getD .linux = .linux
  rw [hrunning]
  rfl

namespace Hypervisor

variable {M : Type} [Board M] {P : M → Prop} {config : Config}

theorem completes_bootDevices
    (hmmio : ∀ address value machine, P machine → P (Mmio.mmioWrite address value machine)) :
    Action.Completes P (bootDevices config) fun found machine =>
      found.2 = found.1.isolation ∧ P machine := by
  unfold bootDevices
  refine Action.Completes.around (S := fun devices => P devices.machine)
    (R := fun found devices => found.2 = found.1.isolation ∧ P devices.machine) ?_
    (fun _ h => h) (fun _ _ h => h)
  refine (Devices.completes_init hmmio config).bind fun isolation => ?_
  exact fun devices h => ⟨_, devices, [], rfl, h⟩

/-- What boot does once the cells are started. -/
def conclude (config : Config) (topology : Topology) (features : FeatureSet)
    (directory : Directory) (cells : Cells) : Action M (Hypervisor M) := do
  let coordinator := Coordinator.ofCells cells directory.isolation directory.status
  Action.note (.bootCompleted coordinator.active)
  let machine ← Action.get
  pure
    { shared := { host := { machine, cells }, coordinator }
      config
      topology
      features
      memory := MemoryPartition.ofConfig config
      directory
      isolation := directory.isolation }

section Whole

variable {start : M} {topology : Topology} {hypervisor : Hypervisor M}

theorem boot_of_invalid {error : Error} (h : config.validate = .error error) :
    (boot config start).outcome = .error error := by
  unfold boot
  rw [Action.note_bind, h]
  rfl

/-- With an accepted configuration nothing stops boot before it starts the cells. `P` is what writes
to registers keep. -/
theorem boot_of_valid (hvalid : config.validate = .ok ())
    (hprobe : (Topology.probe (Board.leaves start) config.linuxCores start).outcome = .ok topology)
    (hstart : P start)
    (hcontrol : ∀ register value machine, P machine →
      P (Board.writeControl register value machine))
    (hmmio : ∀ address value machine, P machine → P (Mmio.mmioWrite address value machine)) :
    ∃ before features directory, P before ∧ ∃ log, boot config start =
      ((bootCells config topology >>= conclude config topology features directory) before).after
        log := by
  obtain ⟨probeLog, hprobed⟩ := Topology.probe_eq hprobe
  obtain ⟨features, featured, enableLog, henabled, hfeatured⟩ :=
    FeatureSet.completes_enable hcontrol start hstart
  obtain ⟨⟨directory, isolation⟩, before, deviceLog, hfound, hisolation, hbefore⟩ :=
    completes_bootDevices hmmio featured hfeatured
  obtain rfl : isolation = directory.isolation := hisolation
  have hvalidated : Action.ofExcept config.validate start = ⟨.ok (), start, []⟩ := by
    rw [hvalid]
    rfl
  refine ⟨before, features, directory, hbefore, ?_⟩
  unfold boot
  rw [Action.note_bind, Action.bind_of_ok hvalidated, Action.bind_of_ok (Action.get_apply start),
    Action.bind_of_ok hprobed, Action.bind_of_ok henabled]
  dsimp only
  rw [Action.note_bind, Action.bind_of_ok hfound]
  simp only [Reply.after_after]
  exact ⟨_, rfl⟩

theorem bootCells_eq_ok_iff {cells : Cells} {before after : M} {log : List Notice} :
    bootCells config topology before = ⟨.ok cells, after, log⟩ ↔
      Host.boot ⟨before, .fresh config topology⟩ = ⟨.ok (), ⟨after, cells⟩, log⟩ := by
  unfold bootCells Action.around
  cases hboot : Host.boot (⟨before, .fresh config topology⟩ : Host M) with
  | mk outcome host bootLog =>
    obtain ⟨machine, started⟩ := host
    cases outcome with
    | ok =>
      rw [Action.bind_of_ok hboot, Action.bind_of_ok (Action.get_apply _)]
      simp [Action.pure_apply, and_assoc, and_left_comm]
    | error error =>
      rw [Action.bind_of_error hboot]
      constructor <;> intro h <;> cases h
    | fault fault =>
      rw [Action.bind_of_fault hboot]
      constructor <;> intro h <;> cases h

/-- With an accepted configuration boot completes where the start of the cells does. -/
theorem completes_boot {Q : Cells → M → Prop} (hvalid : config.validate = .ok ())
    (hprobe : (Topology.probe (Board.leaves start) config.linuxCores start).outcome = .ok topology)
    (hstart : P start)
    (hcontrol : ∀ register value machine, P machine →
      P (Board.writeControl register value machine))
    (hmmio : ∀ address value machine, P machine → P (Mmio.mmioWrite address value machine))
    (hcells : Action.Completes P (bootCells config topology) Q) :
    ∃ hypervisor : Hypervisor M, (boot config start).outcome = .ok hypervisor ∧
      hypervisor.config = config ∧ hypervisor.topology = topology ∧
        Q hypervisor.cells hypervisor.machine := by
  obtain ⟨before, features, directory, hbefore, log, hboot⟩ :=
    boot_of_valid hvalid hprobe hstart hcontrol hmmio
  obtain ⟨cells, after, cellsLog, hstarted, hq⟩ := hcells before hbefore
  rw [hboot, Action.bind_of_ok hstarted]
  exact ⟨_, rfl, rfl, rfl, hq⟩

/-- Fresh cells are not started yet, so to start them is not refused. -/
theorem bootCells_ne_error (before : M) (error : Error) :
    (bootCells config topology before).outcome ≠ .error error := by
  have hcases := Host.boot_cases (⟨before, .fresh config topology⟩ : Host M)
  unfold bootCells Action.around
  cases hstarted : Host.boot (⟨before, .fresh config topology⟩ : Host M) with
  | mk outcome host log =>
    rw [hstarted] at hcases
    cases outcome with
    | ok =>
      rw [Action.bind_of_ok hstarted]
      nofun
    | error =>
      cases hcases with
      | refused started => rcases started with h | h <;> exact absurd rfl h
    | fault fault =>
      rw [Action.bind_of_fault hstarted]
      nofun

theorem boot_ne_error (hvalid : config.validate = .ok ()) (error : Error) :
    (boot config start).outcome ≠ .error error := by
  obtain ⟨topology, hprobe⟩ := Topology.ok_of_probe (Board.leaves start) config.linuxCores start
  obtain ⟨before, features, directory, -, log, hboot⟩ := boot_of_valid (P := fun _ => True) hvalid
    hprobe trivial (fun _ _ _ h => h) (fun _ _ _ h => h)
  have hcells : (bootCells config topology before).outcome ≠ .error error :=
    bootCells_ne_error before error
  rw [hboot, Reply.outcome_after]
  cases hstarted : bootCells config topology before with
  | mk outcome after cellsLog =>
    rw [hstarted] at hcells
    cases outcome with
    | ok =>
      rw [Action.bind_of_ok hstarted]
      nofun
    | error =>
      rw [Action.bind_of_error hstarted]
      rintro ⟨⟩
      exact hcells rfl
    | fault =>
      rw [Action.bind_of_fault hstarted]
      nofun

/-- What the stages of a boot have made of what it gives. The cells were started on a machine with
`P`, which is what writes to registers keep. -/
structure Staged (config : Config) (P : M → Prop) (start : M) (hypervisor : Hypervisor M) :
    Prop where
  config_eq : hypervisor.config = config
  probed : (Topology.probe (Board.leaves start) config.linuxCores start).outcome =
    .ok hypervisor.topology
  isolation : hypervisor.isolation = hypervisor.directory.isolation
  coordinator : hypervisor.coordinator =
    .ofCells hypervisor.cells hypervisor.isolation hypervisor.directory.status
  started : ∃ before log, P before ∧ Host.boot ⟨before, .fresh config hypervisor.topology⟩ =
    ⟨.ok (), hypervisor.shared.host, log⟩

theorem staged_of_boot (hstart : P start)
    (hcontrol : ∀ register value machine, P machine →
      P (Board.writeControl register value machine))
    (hmmio : ∀ address value machine, P machine → P (Mmio.mmioWrite address value machine))
    (h : (boot config start).outcome = .ok hypervisor) : hypervisor.Staged config P start := by
  cases hvalid : config.validate with
  | error error =>
    rw [boot_of_invalid hvalid] at h
    cases h
  | ok =>
    obtain ⟨topology, hprobe⟩ :=
      Topology.ok_of_probe (Board.leaves start) config.linuxCores start
    obtain ⟨before, features, directory, hbefore, log, hboot⟩ :=
      boot_of_valid hvalid hprobe hstart hcontrol hmmio
    rw [hboot, Reply.outcome_after] at h
    obtain ⟨cells, after, cellsLog, hstarted, hlast, -⟩ := Action.ok_of_bind h
    cases hlast
    exact ⟨rfl, hprobe, rfl, rfl, before, cellsLog, hbefore, bootCells_eq_ok_iff.1 hstarted⟩

theorem parts_of_boot (h : (boot config start).outcome = .ok hypervisor) :
    hypervisor.topology.IsSplit ∧ hypervisor.isolation = hypervisor.directory.isolation ∧
      hypervisor.coordinator =
        .ofCells hypervisor.cells hypervisor.isolation hypervisor.directory.status ∧
      ∃ before log, Host.boot ⟨before, .fresh config hypervisor.topology⟩ =
        ⟨.ok (), hypervisor.shared.host, log⟩ := by
  have hstaged : hypervisor.Staged config (fun _ => True) start :=
    staged_of_boot trivial (fun _ _ _ h => h) (fun _ _ _ h => h) h
  obtain ⟨before, log, -, hboot⟩ := hstaged.started
  exact ⟨Topology.isSplit_of_probe hstaged.probed, hstaged.isolation, hstaged.coordinator, before,
    log, hboot⟩

/-- Linux has the first turn. -/
theorem turn_of_boot (h : (boot config start).outcome = .ok hypervisor) :
    hypervisor.activeCell = .linux ∧ hypervisor.cells.state .linux = .running ∧
      hypervisor.cells.state .windows ≠ .running := by
  obtain ⟨-, -, hcoordinator, before, log, hboot⟩ := parts_of_boot h
  obtain ⟨linux, windows⟩ := Host.state_of_boot_ok hboot
  refine ⟨?_, linux, windows⟩
  rw [activeCell, hcoordinator]
  exact Coordinator.active_ofCells linux

end Whole

end Hypervisor
end CellVisor
