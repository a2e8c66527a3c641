import CellVisor.Proofs.Exclusion.Cores

/-!
# CellVisor.Proofs.Agreement

The lifecycle states of the cells agree with where their cores are.

* `aloof_hibernate`, `aloof_resume`, `aloof_boot`: a step of one cell parks no core of the other and
  lets none go, also where it fails or halts.
* `agreeing_act`: every operation that returns keeps the agreement.
* `states_agree`: so in every state that can be reached no core of a running cell is parked, and
  every core of a hibernated one is.
-/

namespace CellVisor

open SimMachine

/-! ## What a step leaves alone -/

/-- Outside `cores` the same cores are parked on `machine` as on `start`. -/
def Aloof (cores : CoreRange) (start machine : SimMachine) : Prop :=
  ∀ core, cores.contains core = false → machine.isParked core = start.isParked core

section Aloof

variable {cores : CoreRange} {start : SimMachine}

theorem aloof_refl : Aloof cores start start := fun _ _ => rfl

theorem stable_aloof (signal : Signal) : Barrier.Stable (Aloof cores start) cores signal where
  signalled := by
    intro id machine next _ hsignal h core hcore
    rw [isParked_of_signalCore hsignal]
    exact h core hcore
  asked := by
    intro id machine hid h core hcore
    show (acknowledged id signal machine).2.isParked core = _
    rw [isParked_acknowledged, if_neg]
    · exact h core hcore
    · rintro ⟨rfl, -⟩
      rw [CoreRange.mem_toList, hcore] at hid
      cases hid
  timed := by
    intro machine time next hclock h
    obtain ⟨-, rfl⟩ := now_eq_some.1 hclock
    exact h

theorem keeps_aloof_copy (target source size block : UInt64) :
    Action.Keeps (Aloof cores start) (Image.copy target source size block) :=
  keeps_isParked_copy
    (fun parked => ∀ core, cores.contains core = false → parked core = start.isParked core) _ _ _ _

theorem Aloof.setContext {machine : SimMachine} (h : Aloof cores start machine) (core : UInt32)
    (context : Context) : Aloof cores start (machine.setContext core context) := by
  intro other hother
  rw [isParked_setContext]
  exact h other hother

theorem aloof_hibernate (id : CellId) (host : Host SimMachine) :
    Aloof (host.cells.get id).cores host.machine (Host.hibernate id host).state.machine :=
  Host.kept_hibernate (stable_aloof .freeze) (keeps_aloof_copy _ _ _ _) aloof_refl

theorem aloof_resume (id : CellId) (host : Host SimMachine) :
    Aloof (host.cells.get id).cores host.machine (Host.resume id host).state.machine :=
  Host.kept_resume (stable_aloof .thaw) (keeps_aloof_copy _ _ _ _) (fun h => h.setContext _ _)
    aloof_refl

theorem aloof_boot (host : Host SimMachine) :
    Aloof (host.cells.get .windows).cores host.machine (Host.boot host).state.machine :=
  Host.kept_boot (stable_aloof .freeze) aloof_refl

end Aloof

/-! ## Agreement -/

def NoneParked (cores : CoreRange) (parked : UInt32 → Bool) : Prop :=
  ∀ core, cores.contains core = true → parked core = false

/-- What the state of the cell `id` says about its cores. Before the start only those of linux are
known to go on. -/
def Agrees (id : CellId) (state : CellState) (cores : CoreRange) (parked : UInt32 → Bool) : Prop :=
  match state with
  | .initializing => id = .linux → NoneParked cores parked
  | .running => NoneParked cores parked
  | .hibernated => AllParked cores parked
  | .error => True

/-- Each cell agrees with where its cores are. -/
def Agreeing (topology : Topology) (host : Host SimMachine) : Prop :=
  ∀ id, Agrees id (host.cells.state id) (topology.ranges.get id) host.machine.isParked

section Agreeing

variable {config : Config} {topology : Topology} {host after : Host SimMachine} {id : CellId}

theorem Agrees.of_eq {state : CellState} {cores : CoreRange} {parked parked' : UInt32 → Bool}
    (h : Agrees id state cores parked)
    (hparked : ∀ core, cores.contains core = true → parked' core = parked core) :
    Agrees id state cores parked' := by
  cases state with
  | initializing => exact fun hid core hcore => (hparked core hcore).trans (h hid core hcore)
  | running | hibernated => exact fun core hcore => (hparked core hcore).trans (h core hcore)
  | error => trivial

theorem noneParked_of_call {cells : Cells} {machine after : SimMachine} {log : List Notice}
    (h : cells.call id .thaw machine = ⟨.ok (), after, log⟩) :
    NoneParked (cells.get id).cores after.isParked := by
  intro core hcore
  have hcall : cells.barrier.rendezvous (cells.get id).cores .thaw machine =
      ⟨.ok (), after, log⟩ := h
  have hparked := Barrier.isParked_of_rendezvous (congrArg Reply.outcome hcall) hcore
  rw [hcall] at hparked
  exact hparked

/-- The cores of the other cell are outside those of the cell. -/
theorem Aloof.other (hsplit : topology.IsSplit) (hlaid : host.cells.Laid config topology)
    {machine : SimMachine} (h : Aloof (host.cells.get id).cores host.machine machine)
    {core : UInt32} (hcore : (topology.ranges.get id.other).contains core = true) :
    machine.isParked core = host.machine.isParked core := by
  refine h core ?_
  have hdisjoint := hsplit.disjoint id.other core hcore
  rw [CellId.other_other] at hdisjoint
  rw [hlaid.cores]
  exact hdisjoint

/-- A step of the cell `id` that leaves the other cell and its cores keeps the agreement, if it ends
in agreement for `id`. -/
theorem Agreeing.of_step (h : Agreeing topology host)
    (hother : after.cells.get id.other = host.cells.get id.other)
    (hparked : ∀ core, (topology.ranges.get id.other).contains core = true →
      after.machine.isParked core = host.machine.isParked core)
    (hown : Agrees id (after.cells.state id) (topology.ranges.get id) after.machine.isParked) :
    Agreeing topology after := by
  intro cell
  rcases CellId.eq_or_eq_other cell id with rfl | rfl
  · exact hown
  · rw [Cells.state, hother]
    exact (h id.other).of_eq hparked

variable (hsplit : topology.IsSplit) (hlaid : host.cells.Laid config topology)

include hsplit hlaid

theorem agreeing_hibernate (h : Agreeing topology host) (id : CellId)
    (returned : (Host.hibernate id host).Returned) :
    Agreeing topology (Host.hibernate id host).state := by
  refine h.of_step (Host.get_other_hibernate id host)
    (fun _ => (aloof_hibernate id host).other hsplit hlaid) ?_
  have hparked := allParked_of_hibernate hlaid id
  have hcases := Host.hibernate_cases id host
  generalize Host.hibernate id host = reply at hcases returned hparked ⊢
  cases hcases with
  | refused => exact h id
  | freezeHalted | copyHalted => exact absurd rfl (returned _)
  | unfrozen | crowded | uncopied => simp [Agrees]
  | hibernated => simpa [Agrees] using hparked rfl

theorem agreeing_resume (h : Agreeing topology host) (id : CellId)
    (returned : (Host.resume id host).Returned) :
    Agreeing topology (Host.resume id host).state := by
  refine h.of_step (Host.get_other_resume id host)
    (fun _ => (aloof_resume id host).other hsplit hlaid) ?_
  have hcases := Host.resume_cases id host
  generalize Host.resume id host = reply at hcases returned ⊢
  cases hcases with
  | refused | contended | coreless => exact h id
  | copyHalted | thawHalted => exact absurd rfl (returned _)
  | uncopied | unthawed => simp [Agrees]
  | resumed _ _ thaw =>
    have hparked := noneParked_of_call thaw
    rw [hlaid.cores] at hparked
    simpa [Agrees] using hparked

theorem agreeing_boot (h : Agreeing topology host) (returned : (Host.boot host).Returned) :
    Agreeing topology (Host.boot host).state := by
  -- the cores of linux go on before the start, and only those of windows are asked to park
  have hruns : host.cells.state .linux = .initializing →
      NoneParked (topology.ranges.get .linux) (Host.boot host).state.machine.isParked := by
    intro linux core hcore
    have hlinux := h .linux
    rw [linux] at hlinux
    exact ((aloof_boot host).other hsplit hlaid hcore).trans (hlinux rfl core hcore)
  have hcases := Host.boot_cases host
  generalize Host.boot host = reply at hcases returned hruns ⊢
  cases hcases with
  | refused => exact h
  | halted => exact absurd rfl (returned _)
  | unparked linux =>
    intro cell
    cases cell with
    | linux => exact hruns linux
    | windows => trivial
  | parked linux _ freeze =>
    intro cell
    cases cell with
    | linux => exact hruns linux
    | windows =>
      have hparked := allParked_of_call freeze
      rw [hlaid.cores] at hparked
      exact hparked

theorem agreeing_act (h : Agreeing topology host) (operation : Host.Operation)
    (returned : (operation.act host).Returned) :
    Agreeing topology (operation.act host).state := by
  cases operation with
  | boot => exact agreeing_boot hsplit hlaid h returned
  | hibernate id => exact agreeing_hibernate hsplit hlaid h id returned
  | resume id => exact agreeing_resume hsplit hlaid h id returned
  | fail id =>
    have hmachine := Host.machine_markFailed id host
    refine h.of_step (Host.get_other_markFailed id host) (fun core _ => ?_) ?_
    · exact congrArg (·.isParked core) hmachine
    · show Agrees id ((Host.markFailed id host).state.cells.state id) _ _
      rw [Host.state_markFailed]
      trivial
  | disturb disturbance =>
    intro cell
    show Agrees cell (host.cells.state cell) _ (disturbance.apply host.machine).isParked
    rw [Sim.Disturbance.isParked_apply]
    exact h cell

end Agreeing

/-! ## Every state that can be reached -/

namespace Host.Operation

/-- The cell that an operation is on. The start is on windows: it lets linux go on and calls the
cores of windows. -/
def cell? : Operation → Option CellId
  | boot => some .windows
  | hibernate id | resume id | fail id => some id
  | disturb _ => none

end Host.Operation

section Reachable

variable {config : Config} {topology : Topology} {machine : SimMachine} {host : Host SimMachine}

theorem aloof_act (operation : Host.Operation) {id : CellId} (h : operation.cell? = some id)
    (host : Host SimMachine) :
    Aloof (host.cells.get id).cores host.machine (operation.act host).state.machine := by
  cases operation with
  | boot =>
    cases h
    exact aloof_boot host
  | hibernate cell =>
    cases h
    exact aloof_hibernate id host
  | resume cell =>
    cases h
    exact aloof_resume id host
  | fail cell =>
    intro core _
    exact congrArg (·.isParked core) (Host.machine_markFailed cell host)
  | disturb => cases h

theorem agreeing_fresh (unparked : NoneParked (topology.ranges.get .linux) machine.isParked) :
    Agreeing topology ⟨machine, .fresh config topology⟩ := by
  intro id
  cases id with
  | linux => exact fun _ => unparked
  | windows => exact fun h => nomatch h

theorem agreeing_of_reachable (hsplit : topology.IsSplit)
    (unparked : NoneParked (topology.ranges.get .linux) machine.isParked)
    (h : Action.Reachable Host.Operation.act ⟨machine, .fresh config topology⟩ host) :
    host.cells.Laid config topology ∧ Agreeing topology host := by
  refine h.kept (P := fun host => host.cells.Laid config topology ∧ Agreeing topology host) ?_
    ⟨Cells.laid_fresh config topology, agreeing_fresh unparked⟩
  rintro operation state returned ⟨hlaid, hagreeing⟩
  exact ⟨Host.Operation.keeps_laid config topology operation state hlaid,
    agreeing_act hsplit hlaid hagreeing operation returned⟩

/-- The states of the cells and the cores agree in whatever comes of a fresh machine on which linux
goes on: no core of a running cell is parked, and every core of a hibernated one is; and an
operation on one cell, even one that fails or halts, leaves every core of the other where it is. -/
theorem states_agree {σ : Type} {state : σ} {leaves : Leaves}
    (hprobe : (Topology.probe leaves config.linuxCores state).outcome = .ok topology)
    (unparked : NoneParked (topology.ranges.get .linux) machine.isParked)
    (reachable : Action.Reachable Host.Operation.act ⟨machine, .fresh config topology⟩ host) :
    (∀ id, host.cells.state id = .running →
        NoneParked (topology.ranges.get id) host.machine.isParked) ∧
      (∀ id, host.cells.state id = .hibernated →
        AllParked (topology.ranges.get id) host.machine.isParked) ∧
      ∀ operation id, Host.Operation.cell? operation = some id →
        ∀ core, (topology.ranges.get id.other).contains core = true →
          (operation.act host).state.machine.isParked core = host.machine.isParked core := by
  have hsplit := Topology.isSplit_of_probe hprobe
  obtain ⟨hlaid, hagreeing⟩ := agreeing_of_reachable hsplit unparked reachable
  refine ⟨?_, ?_, ?_⟩
  · intro id running
    have hcell := hagreeing id
    rw [running] at hcell
    exact hcell
  · intro id hibernated
    have hcell := hagreeing id
    rw [hibernated] at hcell
    exact hcell
  · intro operation id hoperation core hcore
    exact (aloof_act operation hoperation host).other hsplit hlaid hcore

/-- The copy that would save windows fails, and linux, which sleeps, is resumed again. -/
theorem states_agree_compact :
    let host := Host.Operation.run [.boot, .hibernate .linux, .resume .windows,
      .disturb (.failCopies 0), .hibernate .windows, .disturb (.failCopies 100), .resume .linux]
      Host.compact
    host.cells.state .linux = .running ∧
      NoneParked (Topology.halved.ranges.get .linux) host.machine.isParked := by
  intro host
  have hprobe : (Topology.probe (SimMachine.ofCores 4).leaf Config.compact.linuxCores ()).outcome =
      .ok .halved := by decide
  have running : host.cells.state .linux = .running := by decide +kernel
  have reachable : Action.Reachable Host.Operation.act Host.compact host :=
    Action.reachable_of_attemptEach (by decide +kernel)
  exact ⟨running, (states_agree hprobe (fun _ _ => rfl) reachable).1 .linux running⟩

end Reachable
end CellVisor
