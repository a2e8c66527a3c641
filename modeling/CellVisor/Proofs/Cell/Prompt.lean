import CellVisor.Proofs.Agreement
import CellVisor.Proofs.Cell.Endings
import CellVisor.Proofs.Sim.Prompt

/-!
# CellVisor.Proofs.Cell.Prompt

The steps of the lifecycle on a simulated machine with nothing out of order, for the cells of a
sound configuration under a split topology.

* `hibernate_of_prompt`: a running cell is hibernated, unless it has more blocks than a word counts.
* `resume_of_prompt`: a cell that is ready is resumed.
* `prompt_hibernate`, `prompt_resume`: the machine stays prompt.
* `Host.Fit.boot`, `Host.Fit.hibernate`, `Host.Fit.resume`: so nothing gets out of order.
-/

namespace CellVisor

open SimMachine

theorem heeds_of_noneParked {cores : CoreRange} {machine : SimMachine}
    (h : NoneParked cores machine.isParked) (core : UInt32) (hcore : cores.contains core = true) :
    (machine.core core).heeds .freeze = true := by
  have hparked : (machine.core core).parked = false := h core hcore
  simp [Sim.Core.heeds, hparked]

theorem heeds_of_allParked {cores : CoreRange} {machine : SimMachine}
    (h : AllParked cores machine.isParked) (core : UInt32) (hcore : cores.contains core = true) :
    (machine.core core).heeds .thaw = true := h core hcore

theorem prompt_hibernate (id : CellId) {host : Host SimMachine} (prompt : host.machine.Prompt) :
    (Host.hibernate id host).state.machine.Prompt :=
  Host.kept_hibernate (stable_prompt _ _) (keeps_prompt_copy _ _ _ _) prompt

theorem prompt_resume (id : CellId) {host : Host SimMachine} (prompt : host.machine.Prompt) :
    (Host.resume id host).state.machine.Prompt :=
  Host.kept_resume (stable_prompt _ _) (keeps_prompt_copy _ _ _ _) (fun h => h.setContext _ _)
    prompt

section Prompt

variable {config : Config} {topology : Topology} {id : CellId}

theorem call_of_prompt (hsplit : topology.IsSplit) {cells : Cells}
    (hlaid : cells.Laid config topology) {signal : Signal} {machine after : SimMachine}
    {outcome : Outcome Unit} {log : List Notice} (prompt : machine.Prompt)
    (heeds : ∀ core, (topology.ranges.get id).contains core = true →
      (machine.core core).heeds signal = true)
    (hclock : machine.clock.toNat + 10 < UInt64.size)
    (h : cells.call id signal machine = ⟨outcome, after, log⟩) :
    outcome = .ok () ∧ after.clock.toNat = machine.clock.toNat + 10 := by
  have hcall : cells.barrier.rendezvous (topology.ranges.get id) signal machine =
      ⟨outcome, after, log⟩ := by
    rw [← hlaid.cores]
    exact h
  have hprompt := rendezvous_of_prompt cells.barrier (hsplit.bounded id) prompt heeds hclock
  rw [hcall] at hprompt
  exact hprompt

theorem counted_of_saveImage (hsound : config.IsSound) {cells : Cells}
    (hlaid : cells.Laid config topology) {machine after : SimMachine} {outcome : Outcome UInt32}
    {log : List Notice} (prompt : machine.Prompt)
    (h : cells.saveImage id machine = ⟨outcome, after, log⟩) :
    after.clock = machine.clock ∧
      Counted (Image.blockCount (config.cells.get id).memory.size config.blockSize) outcome := by
  have hstore := hsound.store_fits id
  have hlarge := hsound.store_large id
  refine ⟨(keeps_clock_copy machine.clock _ _ _ _).of_eq rfl h, ?_⟩
  unfold Cells.saveImage at h
  rw [hlaid.memory, hlaid.store, hlaid.blockSize] at h
  exact counted_of_copy prompt (by omega) (hsound.memory_fits id) h

theorem counted_of_loadImage (hsound : config.IsSound) {cells : Cells}
    (hlaid : cells.Laid config topology) {machine after : SimMachine} {outcome : Outcome UInt32}
    {log : List Notice} (prompt : machine.Prompt)
    (h : cells.loadImage id machine = ⟨outcome, after, log⟩) :
    after.clock = machine.clock ∧
      Counted (Image.blockCount (config.cells.get id).memory.size config.blockSize) outcome := by
  have hstore := hsound.store_fits id
  have hlarge := hsound.store_large id
  refine ⟨(keeps_clock_copy machine.clock _ _ _ _).of_eq rfl h, ?_⟩
  unfold Cells.loadImage at h
  rw [hlaid.memory, hlaid.store, hlaid.blockSize] at h
  exact counted_of_copy prompt (hsound.memory_fits id) (by omega) h

/-! ## Steps -/

variable {host : Host SimMachine} (hsound : config.IsSound) (hsplit : topology.IsSplit)
  (hlaid : host.cells.Laid config topology) (prompt : host.machine.Prompt)
  (hclock : host.machine.clock.toNat + 10 < UInt64.size)

include hsound hsplit hlaid prompt hclock

/-- A running cell is hibernated within one tick, unless its blocks cannot be counted. -/
theorem hibernate_of_prompt (running : host.cells.state id = .running)
    (unparked : NoneParked (topology.ranges.get id) host.machine.isParked) :
    (Host.hibernate id host).state.machine.clock.toNat = host.machine.clock.toNat + 10 ∧
      Counted (Image.blockCount (config.cells.get id).memory.size config.blockSize)
        (Host.hibernate id host).outcome := by
  have hcall := fun {outcome after log}
      (h : host.cells.call id .freeze host.machine = ⟨outcome, after, log⟩) =>
    call_of_prompt hsplit hlaid prompt (heeds_of_noneParked unparked) hclock h
  have hfrozen := Barrier.keeps_rendezvous (stable_prompt (host.cells.get id).cores .freeze)
    host.cells.barrier
  have hsaved := fun {frozen log outcome copied copyLog}
      (freeze : host.cells.call id .freeze host.machine = ⟨.ok (), frozen, log⟩)
      (copy : host.cells.saveImage id frozen = ⟨outcome, copied, copyLog⟩) =>
    counted_of_saveImage hsound hlaid (hfrozen.of_eq prompt freeze) copy
  have hcases := Host.hibernate_cases id host
  generalize Host.hibernate id host = reply at hcases ⊢
  cases hcases with
  | refused idle => exact absurd running idle
  | freezeHalted _ freeze | unfrozen _ freeze => cases (hcall freeze).1
  | crowded _ _ many => exact absurd many (Nat.not_lt.2 (length_contextsOn_le hsplit hlaid _))
  | copyHalted _ freeze _ copy =>
    obtain ⟨hsame, hcounted⟩ := hsaved freeze copy
    cases hcounted with
    | overrun many => exact ⟨hsame ▸ (hcall freeze).2, .overrun many⟩
  | uncopied _ freeze _ copy => cases (hsaved freeze copy).2
  | hibernated _ freeze _ copy =>
    obtain ⟨hsame, hcounted⟩ := hsaved freeze copy
    cases hcounted with
    | numbered few => exact ⟨hsame ▸ (hcall freeze).2, .numbered few⟩

/-- A cell that is ready is resumed within one tick, where the blocks of its image were counted. -/
theorem resume_of_prompt (ready : Host.Ready id host.cells)
    (parked : AllParked (topology.ranges.get id) host.machine.isParked)
    (himage : (host.cells.get id).hasImage = true →
      Image.blockCount (config.cells.get id).memory.size config.blockSize < UInt32.size) :
    (Host.resume id host).outcome = .ok () ∧
      (Host.resume id host).state.machine.clock.toNat = host.machine.clock.toNat + 10 := by
  have hcopied := fun {outcome after log}
      (h : host.cells.loadImage id host.machine = ⟨outcome, after, log⟩) =>
    counted_of_loadImage hsound hlaid prompt h
  have hloaded : ∀ {loaded log}, Host.Loaded host.cells id host.machine loaded log →
      loaded.Prompt ∧ loaded.clock = host.machine.clock ∧
        AllParked (topology.ranges.get id) loaded.isParked := by
    intro loaded log load
    refine Host.kept_loaded (P := fun next : SimMachine => next.Prompt ∧
      next.clock = host.machine.clock ∧ AllParked (topology.ranges.get id) next.isParked)
      ?_ ?_ load ⟨prompt, rfl, parked⟩
    · exact (keeps_prompt_copy _ _ _ _).and ((keeps_clock_copy _ _ _ _ _).and
        (keeps_isParked_copy _ _ _ _ _))
    · rintro core context machine ⟨hprompt, hsame, hparked⟩
      refine ⟨hprompt.setContext core context, hsame, ?_⟩
      show AllParked _ (machine.setContext core context).isParked
      rw [isParked_setContext]
      exact hparked
  have hthaw := fun {loaded loadLog outcome after log}
      (load : Host.Loaded host.cells id host.machine loaded loadLog)
      (h : host.cells.call id .thaw loaded = ⟨outcome, after, log⟩) =>
    call_of_prompt hsplit hlaid (hloaded load).1 (heeds_of_allParked (hloaded load).2.2)
      (by rw [(hloaded load).2.1]; exact hclock) h
  have hcases := Host.resume_cases id host
  generalize Host.resume id host = reply at hcases ⊢
  cases hcases with
  | refused awake => exact absurd ready.hibernated awake
  | contended _ running => exact absurd running ready.alone
  | coreless _ _ empty =>
    rw [ready.owned] at empty
    cases empty
  | copyHalted _ image copy | uncopied _ image copy =>
    obtain ⟨_, hnumbered⟩ := (hcopied copy).2.ok_of_lt (himage image)
    cases hnumbered
  | thawHalted _ load thaw | unthawed _ load thaw => cases (hthaw load thaw).1
  | resumed _ load thaw =>
    refine ⟨rfl, ?_⟩
    rw [(hthaw load thaw).2, (hloaded load).2.1]

end Prompt

/-! ## A host with nothing out of order -/

namespace Host

/-- The cells are where they are laid out, their states agree with the cores, and the machine is
prompt. -/
structure Fit (config : Config) (topology : Topology) (host : Host SimMachine) : Prop where
  laid : host.cells.Laid config topology
  agreeing : Agreeing topology host
  prompt : host.machine.Prompt

section Fit

variable {config : Config} {topology : Topology} {host : Host SimMachine} {id : CellId}
  (hsound : config.IsSound) (hsplit : topology.IsSplit) (fit : host.Fit config topology)
  (hclock : host.machine.clock.toNat + 10 < UInt64.size)

include hsound hsplit fit hclock

theorem Fit.hibernate (running : host.cells.state id = .running)
    (few : Image.blockCount (config.cells.get id).memory.size config.blockSize < UInt32.size) :
    ∃ after log, Host.hibernate id host = ⟨.ok (), after, log⟩ ∧ after.Fit config topology ∧
      after.machine.clock.toNat = host.machine.clock.toNat + 10 := by
  have hunparked := fit.agreeing id
  rw [running] at hunparked
  have hends := hibernate_of_prompt hsound hsplit fit.laid fit.prompt hclock running hunparked
  have hprompt := prompt_hibernate id fit.prompt
  have hlaid := fit.laid.of_blank_eq (blank_hibernate id host)
  have hagreeing := agreeing_hibernate hsplit fit.laid fit.agreeing id
  generalize Host.hibernate id host = reply at hends hprompt hlaid hagreeing ⊢
  obtain ⟨outcome, after, log⟩ := reply
  obtain ⟨_, rfl⟩ := hends.2.ok_of_lt few
  exact ⟨after, log, rfl, ⟨hlaid, hagreeing (by simp [Reply.Returned]), hprompt⟩, hends.1⟩

theorem Fit.resume (ready : Ready id host.cells)
    (few : Image.blockCount (config.cells.get id).memory.size config.blockSize < UInt32.size) :
    ∃ after log, Host.resume id host = ⟨.ok (), after, log⟩ ∧ after.Fit config topology ∧
      after.machine.clock.toNat = host.machine.clock.toNat + 10 := by
  have hparked := fit.agreeing id
  rw [ready.hibernated] at hparked
  have hends := resume_of_prompt hsound hsplit fit.laid fit.prompt hclock ready hparked
    fun _ => few
  have hprompt := prompt_resume id fit.prompt
  have hlaid := fit.laid.of_blank_eq (blank_resume id host)
  have hagreeing := agreeing_resume hsplit fit.laid fit.agreeing id
  generalize Host.resume id host = reply at hends hprompt hlaid hagreeing ⊢
  obtain ⟨outcome, after, log⟩ := reply
  obtain ⟨rfl, hticked⟩ := hends
  exact ⟨after, log, rfl, ⟨hlaid, hagreeing (by simp [Reply.Returned]), hprompt⟩, hticked⟩

omit hsound in
theorem Fit.boot (linux : host.cells.state .linux = .initializing)
    (windows : host.cells.state .windows = .initializing)
    (unparked : NoneParked (topology.ranges.get .windows) host.machine.isParked) :
    ∃ after log, Host.boot host = ⟨.ok (), after, log⟩ ∧ after.Fit config topology ∧
      after.machine.clock.toNat = host.machine.clock.toNat + 10 ∧
      after.cells.state .linux = .running ∧ after.cells.state .windows = .hibernated := by
  have hcall := fun {outcome after log}
      (h : host.cells.call .windows .freeze host.machine = ⟨outcome, after, log⟩) =>
    call_of_prompt hsplit fit.laid fit.prompt (heeds_of_noneParked unparked) hclock h
  have hfrozen := Barrier.keeps_rendezvous
    (stable_prompt (host.cells.get .windows).cores .freeze) host.cells.barrier
  have hlaid := fit.laid.of_blank_eq (blank_boot host)
  have hagreeing := agreeing_boot hsplit fit.laid fit.agreeing
  have hcases := boot_cases host
  generalize Host.boot host = reply at hcases hlaid hagreeing ⊢
  cases hcases with
  | refused started =>
    rcases started with h | h
    · exact absurd linux h
    · exact absurd windows h
  | halted _ _ freeze | unparked _ _ freeze => cases (hcall freeze).1
  | parked _ _ freeze =>
    have hprompt := hfrozen.of_eq fit.prompt freeze
    exact ⟨_, _, rfl, ⟨hlaid, hagreeing (by simp [Reply.Returned]), hprompt⟩, (hcall freeze).2,
      rfl, rfl⟩

end Fit
end Host
end CellVisor
