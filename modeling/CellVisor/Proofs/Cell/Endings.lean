import CellVisor.Proofs.Barrier.Answers
import CellVisor.Proofs.Config.Layout
import CellVisor.Proofs.Cell.Frame
import CellVisor.Proofs.Cpu.Split
import CellVisor.Proofs.Sim.Kept

/-!
# CellVisor.Proofs.Cell.Endings

How a hibernation and a resumption on the simulated machine can end, for the cells of an accepted
configuration under a detected topology.

* `clock_ge_hibernate`, `clock_ge_resume`: the clock does not go back.
* `hibernate_ending`, `resume_ending`: once begun, a step succeeds, or fails because a core is late
  or a copy failed, or halts because the clock has run out.
-/

namespace CellVisor

open SimMachine

/-! ## Primitives -/

theorem clock_copy (target source size : UInt64) (machine : SimMachine) :
    (machine.copy target source size).2.clock = machine.clock := by
  have hcopied := SimMachine.copy_cases target source size machine
  generalize machine.copy target source size = reply at hcopied ⊢
  cases hcopied <;> rfl

theorem error_of_copy {target source size : UInt64} {machine after : SimMachine} {error : Error}
    (h : machine.copy target source size = (.error error, after)) : error = .copyFailed := by
  have hcopied := SimMachine.copy_cases target source size machine
  rw [h] at hcopied
  cases hcopied
  rfl

theorem Image.eq_copyFailed_of_copy {target source size block : UInt64} {machine after : SimMachine}
    {error : Error} {log : List Notice}
    (h : Image.copy target source size block machine = ⟨.error error, after, log⟩) :
    error = .copyFailed := by
  obtain ⟨_, _, _, _, -, -, hcopy⟩ :=
    failed_of_copy (P := fun _ : SimMachine => True) (fun _ _ => trivial) trivial h
  exact error_of_copy hcopy

theorem keeps_clock_copy (clock target source size block : UInt64) :
    Action.Keeps (fun machine : SimMachine => machine.clock = clock)
      (Image.copy target source size block) :=
  Image.keeps_copy fun _ h => (clock_copy _ _ _ _).trans h

/-- A copy of an image inside the address space leaves the clock, and succeeds or fails as a copy
does. -/
theorem Image.ends_of_copy {target source size block : UInt64}
    (htarget : target.toNat + size.toNat < UInt64.size)
    (hsource : source.toNat + size.toNat < UInt64.size)
    (hblocks : Image.blockCount size block < UInt32.size) {machine after : SimMachine}
    {outcome : Outcome UInt32} {log : List Notice}
    (h : Image.copy target source size block machine = ⟨outcome, after, log⟩) :
    after.clock = machine.clock ∧
      (outcome = .error .copyFailed ∨ ∃ count, outcome = .ok count) := by
  refine ⟨(keeps_clock_copy machine.clock target source size block).of_eq rfl h, ?_⟩
  rcases Image.copy_cases htarget hsource hblocks machine with ⟨count, next, hreply⟩ |
      ⟨error, next, hreply, _, _, _, _, hcopy⟩
  · rw [hreply] at h
    cases h
    exact .inr ⟨count, rfl⟩
  · rw [hreply] at h
    cases h
    rw [error_of_copy hcopy]
    exact .inl rfl

/-! ## The clock -/

theorem stable_clock_ge (bound : Nat) (cores : CoreRange) (signal : Signal) :
    Barrier.Stable (fun machine : SimMachine => bound ≤ machine.clock.toNat) cores signal where
  signalled := by
    intro core machine next _ hsignal h
    rw [clock_of_signalCore hsignal]
    exact h
  asked := by
    intro core machine _ h
    show bound ≤ (acknowledged core signal machine).2.clock.toNat
    rw [clock_acknowledged]
    exact h
  timed := by
    intro machine time next hclock h
    obtain ⟨htime, rfl⟩ := now_eq_some.1 hclock
    show bound ≤ time.toNat
    omega

theorem keeps_clock_ge_copy (bound : Nat) (target source size block : UInt64) :
    Action.Keeps (fun machine : SimMachine => bound ≤ machine.clock.toNat)
      (Image.copy target source size block) := by
  intro machine h
  rw [keeps_clock_copy machine.clock target source size block machine rfl]
  exact h

theorem clock_ge_hibernate (bound : Nat) (id : CellId) :
    Action.Keeps (fun host : Host SimMachine => bound ≤ host.machine.clock.toNat)
      (Host.hibernate id) :=
  fun _ h => Host.kept_hibernate (stable_clock_ge bound _ _) (keeps_clock_ge_copy bound _ _ _ _) h

theorem clock_ge_resume (bound : Nat) (id : CellId) :
    Action.Keeps (fun host : Host SimMachine => bound ≤ host.machine.clock.toNat)
      (Host.resume id) :=
  fun _ h => Host.kept_resume (stable_clock_ge bound _ _) (keeps_clock_ge_copy bound _ _ _ _)
    (fun h => h) h

/-! ## Endings -/

/-- Why a step of a cell with these cores fails once it is begun. -/
inductive Cause (cores : CoreRange) : Error → Prop where
  | late {core : UInt32} (owned : cores.contains core = true) : Cause cores (.syncTimeout core)
  | uncopied : Cause cores .copyFailed

/-- How a step of a cell with these cores ends once it is begun, given what the clock shows then.
It halts only where no further tick fits the clock, and before that tick would pass `limit`. -/
inductive Ending (cores : CoreRange) (limit : Nat) (clock : UInt64) : Outcome Unit → Prop where
  | succeeded : Ending cores limit clock (.ok ())
  | failed {error : Error} (cause : Cause cores error) : Ending cores limit clock (.error error)
  | halted {fault : Fault} (inTime : clock.toNat + 10 ≤ limit)
      (spent : UInt64.size ≤ clock.toNat + 10) : Ending cores limit clock (.fault fault)

section Endings

variable {config : Config} {topology : Topology} {host : Host SimMachine} {id : CellId}

theorem ends_of_call (hsplit : topology.IsSplit) {cells : Cells}
    (hlaid : cells.Laid config topology) {signal : Signal} {machine after : SimMachine}
    {outcome : Outcome Unit} {log : List Notice}
    (h : cells.call id signal machine = ⟨outcome, after, log⟩) :
    after.clock.toNat ≤ machine.clock.toNat + config.freezeTimeout.toNat + 20 ∧
      Ending (cells.get id).cores (machine.clock.toNat + config.freezeTimeout.toNat + 20)
        after.clock outcome := by
  have hcall : cells.barrier.rendezvous (cells.get id).cores signal machine =
      ⟨outcome, after, log⟩ := h
  have hbounded : (cells.get id).cores.stop.toNat ≤ maxCores := by
    rw [hlaid.cores]
    exact hsplit.bounded id
  have hclock := Barrier.clock_rendezvous cells.barrier (cells.get id).cores signal machine
  rw [hcall, hlaid.barrier] at hclock
  refine ⟨hclock.1, ?_⟩
  cases outcome with
  | ok => exact .succeeded
  | fault fault =>
    obtain ⟨hinTime, hspent⟩ := hclock.2 fault rfl
    exact .halted (by dsimp only at hinTime; omega) hspent
  | error error =>
    obtain ⟨core, howned, rfl⟩ := Barrier.error_of_rendezvous hbounded
      (congrArg Reply.outcome hcall)
    exact .failed (.late howned)

theorem ends_of_saveImage (hsound : config.IsSound)
    (hblocks : Image.blockCount (config.cells.get id).memory.size config.blockSize < UInt32.size)
    {cells : Cells} (hlaid : cells.Laid config topology) {machine after : SimMachine}
    {outcome : Outcome UInt32} {log : List Notice}
    (h : cells.saveImage id machine = ⟨outcome, after, log⟩) :
    after.clock = machine.clock ∧
      (outcome = .error .copyFailed ∨ ∃ count, outcome = .ok count) := by
  have hstore := hsound.store_fits id
  have hlarge := hsound.store_large id
  unfold Cells.saveImage at h
  rw [hlaid.memory, hlaid.store, hlaid.blockSize] at h
  exact Image.ends_of_copy (by omega) (hsound.memory_fits id) hblocks h

theorem ends_of_loadImage (hsound : config.IsSound)
    (hblocks : Image.blockCount (config.cells.get id).memory.size config.blockSize < UInt32.size)
    {cells : Cells} (hlaid : cells.Laid config topology) {machine after : SimMachine}
    {outcome : Outcome UInt32} {log : List Notice}
    (h : cells.loadImage id machine = ⟨outcome, after, log⟩) :
    after.clock = machine.clock ∧
      (outcome = .error .copyFailed ∨ ∃ count, outcome = .ok count) := by
  have hstore := hsound.store_fits id
  have hlarge := hsound.store_large id
  unfold Cells.loadImage at h
  rw [hlaid.memory, hlaid.store, hlaid.blockSize] at h
  exact Image.ends_of_copy (hsound.memory_fits id) (by omega) hblocks h

/-- A laid out cell has no more cores than contexts can be kept of. -/
theorem length_contextsOn_le (hsplit : topology.IsSplit) {cells : Cells}
    (hlaid : cells.Laid config topology) (machine : SimMachine) :
    ((cells.get id).contextsOn machine).length ≤ maxCores := by
  have hbounded := hsplit.bounded id
  rw [Cell.contextsOn, List.length_map, CoreRange.length_toList, CoreRange.toNat_size, hlaid.cores]
  omega

theorem hibernate_ending (hsound : config.IsSound) (hsplit : topology.IsSplit)
    (hblocks : Image.blockCount (config.cells.get id).memory.size config.blockSize < UInt32.size)
    (hlaid : host.cells.Laid config topology) (running : host.cells.state id = .running) :
    (Host.hibernate id host).state.machine.clock.toNat ≤
        host.machine.clock.toNat + config.freezeTimeout.toNat + 20 ∧
      Ending (host.cells.get id).cores
        (host.machine.clock.toNat + config.freezeTimeout.toNat + 20)
        (Host.hibernate id host).state.machine.clock (Host.hibernate id host).outcome := by
  have hcases := Host.hibernate_cases id host
  generalize Host.hibernate id host = reply at hcases ⊢
  cases hcases with
  | refused idle => exact absurd running idle
  | freezeHalted _ freeze | unfrozen _ freeze => exact ends_of_call hsplit hlaid freeze
  | crowded _ freeze many => exact absurd many (Nat.not_lt.2 (length_contextsOn_le hsplit hlaid _))
  | copyHalted _ freeze _ copy =>
    rcases (ends_of_saveImage hsound hblocks hlaid copy).2 with h | ⟨_, h⟩ <;> cases h
  | uncopied _ freeze _ copy =>
    obtain ⟨hclock, hfailed⟩ := ends_of_saveImage hsound hblocks hlaid copy
    rcases hfailed with h | ⟨_, h⟩ <;> cases h
    rw [hclock]
    exact ⟨(ends_of_call hsplit hlaid freeze).1, .failed .uncopied⟩
  | hibernated _ freeze _ copy =>
    rw [(ends_of_saveImage hsound hblocks hlaid copy).1]
    exact ⟨(ends_of_call hsplit hlaid freeze).1, .succeeded⟩

theorem clock_of_loaded {cells : Cells} {machine loaded : SimMachine} {log : List Notice}
    (load : Host.Loaded cells id machine loaded log) : loaded.clock = machine.clock := by
  have hset : ∀ saved (next : SimMachine), next.clock = machine.clock →
      (Host.setContexts saved next).clock = machine.clock := fun saved next h =>
    Host.kept_setContexts (P := fun next : SimMachine => next.clock = machine.clock)
      (fun h => h) saved h
  cases load with
  | image _ copy => exact hset _ _ ((keeps_clock_copy machine.clock _ _ _ _).of_eq rfl copy)
  | start => exact hset _ _ rfl

theorem resume_ending (hsound : config.IsSound) (hsplit : topology.IsSplit)
    (hblocks : (host.cells.get id).hasImage = true →
      Image.blockCount (config.cells.get id).memory.size config.blockSize < UInt32.size)
    (hlaid : host.cells.Laid config topology) (ready : Host.Ready id host.cells) :
    (Host.resume id host).state.machine.clock.toNat ≤
        host.machine.clock.toNat + config.freezeTimeout.toNat + 20 ∧
      Ending (host.cells.get id).cores
        (host.machine.clock.toNat + config.freezeTimeout.toNat + 20)
        (Host.resume id host).state.machine.clock (Host.resume id host).outcome := by
  have hcases := Host.resume_cases id host
  generalize Host.resume id host = reply at hcases ⊢
  cases hcases with
  | refused awake => exact absurd ready.hibernated awake
  | contended _ running => exact absurd running ready.alone
  | coreless _ _ empty =>
    rw [ready.owned] at empty
    cases empty
  | copyHalted _ image copy =>
    rcases (ends_of_loadImage hsound (hblocks image) hlaid copy).2 with h | ⟨_, h⟩ <;> cases h
  | uncopied _ image copy =>
    obtain ⟨hclock, hfailed⟩ := ends_of_loadImage hsound (hblocks image) hlaid copy
    rcases hfailed with h | ⟨_, h⟩ <;> cases h
    refine ⟨?_, .failed .uncopied⟩
    rw [hclock]
    omega
  | thawHalted _ load thaw | unthawed _ load thaw | resumed _ load thaw =>
    have hthaw := ends_of_call hsplit hlaid thaw
    rw [clock_of_loaded load] at hthaw
    exact hthaw

end Endings
end CellVisor
