import CellVisor.Proofs.Lifecycle

/-!
# CellVisor.Proofs.Cell.Failures

How the hibernation and the resumption of a cell fail, for cells that come of fresh ones, on any
machine.

* `hibernate_of_idle`, `resume_of_occupied`, `resume_of_coreless`: what is refused, and that it
  changes nothing.
* `FailsCleanly`: what a failure leaves. `fails_hibernate`, `fails_resume`: every failure is clean.
* `Cell.Changed.eq_of_hibernated`, `Cell.Changed.eq_of_resumed`: what a success changes of a cell.
* `fails_as_documented`: all of it.
-/

namespace CellVisor

open SimMachine

namespace Host

/-! ## Refusals -/

section Refusals

variable {M : Type} [Machine M] {id : CellId} {host : Host M}

theorem hibernate_of_idle (idle : host.cells.state id ≠ .running) :
    hibernate id host = ⟨.error .invalidState, host, []⟩ := by
  have hcases := hibernate_cases id host
  generalize hibernate id host = reply at hcases ⊢
  cases hcases with
  | refused => rfl
  | freezeHalted running | unfrozen running | crowded running | copyHalted running
  | uncopied running | hibernated running => exact absurd running idle

/-- A cell cannot be resumed while it is awake, or while the other runs. -/
theorem resume_of_occupied
    (occupied : host.cells.state id ≠ .hibernated ∨ host.cells.state id.other = .running) :
    ∃ log, resume id host = ⟨.error .invalidState, host, log⟩ := by
  have hcases := resume_cases id host
  generalize resume id host = reply at hcases ⊢
  cases hcases with
  | refused | contended => exact ⟨_, rfl⟩
  | coreless hibernated alone =>
    exact absurd occupied (not_or.2 ⟨not_not_intro hibernated, alone⟩)
  | copyHalted ready | uncopied ready | thawHalted ready | unthawed ready | resumed ready =>
    exact absurd occupied (not_or.2 ⟨not_not_intro ready.hibernated, ready.alone⟩)

theorem resume_of_coreless (hibernated : host.cells.state id = .hibernated)
    (alone : host.cells.state id.other ≠ .running)
    (empty : (host.cells.get id).cores.isEmpty = true) :
    resume id host = ⟨.error (.config .cellOwnsNoCores), host, []⟩ := by
  have hcases := resume_cases id host
  generalize resume id host = reply at hcases ⊢
  cases hcases with
  | refused awake => exact absurd hibernated awake
  | contended _ running => exact absurd running alone
  | coreless => rfl
  | copyHalted ready | uncopied ready | thawHalted ready | unthawed ready | resumed ready =>
    have owned := ready.owned
    rw [empty] at owned
    cases owned

end Refusals

end Host

/-! ## Records -/

namespace Cell.Changed

variable {blockSize : UInt64} {id : CellId} {cell after : Cell}
  {moves : List (CellState × CellState)}

/-- A cell that is out of order has the image that it had. -/
theorem blocks_eq (h : Changed blockSize id cell moves after) (failed : after.state = .error) :
    after.blocks = cell.blocks := by
  cases h with
  | kept | failed | started | parked | resumed | taken | uncopied => rfl
  | hibernated => cases failed

theorem eq_of_hibernated (h : Changed blockSize id cell moves after)
    (running : cell.state = .running) (slept : after.state = .hibernated) :
    ∃ saved blocks, after = { cell with state := .hibernated, saved, blocks } := by
  cases h with
  | hibernated => exact ⟨_, _, rfl⟩
  | parked fresh =>
    rw [running] at fresh
    cases fresh
  | kept | taken =>
    rw [show cell.state = .hibernated from slept] at running
    cases running
  | failed | started | resumed | uncopied => cases slept

theorem eq_of_resumed (h : Changed blockSize id cell moves after)
    (hibernated : cell.state = .hibernated) (woke : after.state = .running) :
    after = { cell with state := .running } := by
  cases h with
  | started | resumed => rfl
  | kept | taken =>
    rw [show cell.state = .running from woke] at hibernated
    cases hibernated
  | failed | parked | uncopied | hibernated => cases woke

end Cell.Changed

/-! ## Failures -/

namespace Host

section Failures

variable {config : Config} {topology : Topology} {id : CellId} {host : Host SimMachine}

/-- How a step of the cell `id`, begun on `host`, may fail: it was refused with one of the errors
`Refused`, and nothing has changed; or a core of the cell was late or a copy failed, and the cell is
out of order, with the image that it had. The other cell has no part in it. It halts only where no
further tick fits the clock, and before the deadline. -/
structure FailsCleanly (config : Config) (id : CellId) (Refused : Error → Prop)
    (host : Host SimMachine) (reply : Reply (Host SimMachine) Unit) : Prop where
  other : reply.state.cells.get id.other = host.cells.get id.other
  refused : ∀ error, Refused error → reply.outcome = .error error → reply.state = host
  failed : ∀ error, ¬ Refused error → reply.outcome = .error error →
    Cause (host.cells.get id).cores error ∧ reply.state.cells.state id = .error ∧
      (reply.state.cells.get id).blocks = (host.cells.get id).blocks
  halted : ∀ fault, reply.outcome = .fault fault →
    reply.state.machine.clock.toNat ≤
        host.machine.clock.toNat + config.freezeTimeout.toNat + 10 ∧
      UInt64.size ≤ reply.state.machine.clock.toNat + 10

theorem FailsCleanly.of_refused {Refused : Error → Prop} {error : Error} {log : List Notice}
    (h : Refused error) : FailsCleanly config id Refused host ⟨.error error, host, log⟩ where
  other := rfl
  refused := fun _ _ _ => rfl
  failed := by
    rintro other hother ⟨⟩
    exact absurd h hother
  halted := nofun

/-- What was begun, and ends in one of the ways that there are, fails cleanly. -/
theorem FailsCleanly.of_ending {Refused : Error → Prop} {reply : Reply (Host SimMachine) Unit}
    (changes : Changes id host reply)
    (refusal : ∀ {error}, Refused error → ¬ Cause (host.cells.get id).cores error)
    (ending : Ending (host.cells.get id).cores
      (host.machine.clock.toNat + config.freezeTimeout.toNat + 20) reply.state.machine.clock
      reply.outcome)
    (state : ∀ {error after log}, reply = ⟨.error error, after, log⟩ →
      after.cells.state id = .error) :
    FailsCleanly config id Refused host reply where
  other := changes.other
  refused := by
    intro error hrefused h
    rw [h] at ending
    cases ending with
    | failed cause => exact absurd cause (refusal hrefused)
  failed := by
    intro error _ h
    have hstate : reply.state.cells.state id = .error :=
      state (show reply = ⟨.error error, reply.state, reply.log⟩ by rw [← h])
    rw [h] at ending
    cases ending with
    | failed cause => exact ⟨cause, hstate, changes.own.blocks_eq hstate⟩
  halted := by
    intro fault h
    rw [h] at ending
    cases ending with
    | halted inTime spent => exact ⟨by omega, spent⟩

theorem fails_hibernate (hsound : config.IsSound) (hsplit : topology.IsSplit)
    (hblocks : Image.blockCount (config.cells.get id).memory.size config.blockSize < UInt32.size)
    (hlaid : host.cells.Laid config topology) :
    FailsCleanly config id (· = .invalidState) host (hibernate id host) := by
  by_cases running : host.cells.state id = .running
  · refine .of_ending (changes_hibernate id host) ?_
      (hibernate_ending hsound hsplit hblocks hlaid running).2 (state_of_hibernate_error running)
    rintro _ rfl ⟨⟩
  · rw [hibernate_of_idle running]
    exact .of_refused rfl

/-- A cell is ready to be resumed, unless it is refused. -/
theorem ready_or_refused (id : CellId) (host : Host SimMachine) :
    (host.cells.state id ≠ .hibernated ∨ host.cells.state id.other = .running) ∨
      (host.cells.state id = .hibernated ∧ host.cells.state id.other ≠ .running ∧
        (host.cells.get id).cores.isEmpty = true) ∨
      Ready id host.cells := by
  by_cases occupied : host.cells.state id ≠ .hibernated ∨ host.cells.state id.other = .running
  · exact .inl occupied
  · obtain ⟨hibernated, alone⟩ := not_or.1 occupied
    rw [Decidable.not_not] at hibernated
    cases empty : (host.cells.get id).cores.isEmpty with
    | true => exact .inr (.inl ⟨hibernated, alone, rfl⟩)
    | false => exact .inr (.inr ⟨hibernated, alone, empty⟩)

theorem fails_resume (hsound : config.IsSound) (hsplit : topology.IsSplit)
    (hblocks : Image.blockCount (config.cells.get id).memory.size config.blockSize < UInt32.size)
    (hlaid : host.cells.Laid config topology) :
    FailsCleanly config id (fun error => error = .invalidState ∨ error = .config .cellOwnsNoCores)
      host (resume id host) := by
  rcases ready_or_refused id host with occupied | ⟨hibernated, alone, empty⟩ | ready
  · obtain ⟨log, hrefused⟩ := resume_of_occupied occupied
    rw [hrefused]
    exact .of_refused (.inl rfl)
  · rw [resume_of_coreless hibernated alone empty]
    exact .of_refused (.inr rfl)
  · refine .of_ending (changes_resume id host) ?_
      (resume_ending hsound hsplit (fun _ => hblocks) hlaid ready).2 (state_of_resume_error ready)
    rintro _ (rfl | rfl) ⟨⟩

/-- How the hibernation and the resumption of the cell `id` end on `host`, as far as the records of
the cells go. -/
structure Documented (config : Config) (id : CellId) (host : Host SimMachine) : Prop where
  hibernate : FailsCleanly config id (· = .invalidState) host (Host.hibernate id host)
  hibernate_refused : (Host.hibernate id host).outcome = .error .invalidState ↔
    host.cells.state id ≠ .running
  hibernated : (Host.hibernate id host).outcome = .ok () → ∃ saved blocks,
    (Host.hibernate id host).state.cells.get id =
      { host.cells.get id with state := .hibernated, saved, blocks }
  resume : FailsCleanly config id
    (fun error => error = .invalidState ∨ error = .config .cellOwnsNoCores) host
    (Host.resume id host)
  resume_refused : (Host.resume id host).outcome = .error .invalidState ↔
    host.cells.state id ≠ .hibernated ∨ host.cells.state id.other = .running
  resume_coreless : (Host.resume id host).outcome = .error (.config .cellOwnsNoCores) ↔
    host.cells.state id = .hibernated ∧ host.cells.state id.other ≠ .running ∧
      (host.cells.get id).cores.isEmpty = true
  resumed : (Host.resume id host).outcome = .ok () →
    (Host.resume id host).state.cells.get id = { host.cells.get id with state := .running }
  never : ∀ error ∈ [Error.config .rangeExceedsBarrier, .config .coreOutsideMailbox,
      .resourceExhausted],
    (Host.hibernate id host).outcome ≠ .error error ∧
      (Host.resume id host).outcome ≠ .error error

theorem FailsCleanly.ne_of_not_cause {Refused : Error → Prop} {error : Error}
    {reply : Reply (Host SimMachine) Unit} (h : FailsCleanly config id Refused host reply)
    (hrefused : ¬ Refused error) (hcause : ¬ Cause (host.cells.get id).cores error) :
    reply.outcome ≠ .error error := fun herror => hcause (h.failed error hrefused herror).1

section Documented

variable (hsound : config.IsSound) (hsplit : topology.IsSplit)
  (hblocks : Image.blockCount (config.cells.get id).memory.size config.blockSize < UInt32.size)
  (hlaid : host.cells.Laid config topology)

include hsound hsplit hblocks hlaid

theorem hibernate_refused_iff :
    (hibernate id host).outcome = .error .invalidState ↔ host.cells.state id ≠ .running := by
  constructor
  · intro herror running
    have hending := (hibernate_ending hsound hsplit hblocks hlaid running).2
    rw [herror] at hending
    cases hending with
    | failed cause => cases cause
  · intro idle
    rw [hibernate_of_idle idle]

/-- A cell that is ready is not refused. -/
theorem not_refused_of_ready (ready : Ready id host.cells) :
    (resume id host).outcome ≠ .error .invalidState ∧
      (resume id host).outcome ≠ .error (.config .cellOwnsNoCores) := by
  have hending := (resume_ending hsound hsplit (fun _ => hblocks) hlaid ready).2
  constructor <;> intro herror <;> rw [herror] at hending <;> cases hending with
    | failed cause => cases cause

theorem resume_refused_iff :
    (resume id host).outcome = .error .invalidState ↔
      host.cells.state id ≠ .hibernated ∨ host.cells.state id.other = .running := by
  constructor
  · intro herror
    rcases ready_or_refused id host with occupied | ⟨hibernated, alone, empty⟩ | ready
    · exact occupied
    · rw [resume_of_coreless hibernated alone empty] at herror
      cases herror
    · exact absurd herror (not_refused_of_ready hsound hsplit hblocks hlaid ready).1
  · intro occupied
    obtain ⟨log, hrefused⟩ := resume_of_occupied occupied
    rw [hrefused]

theorem resume_coreless_iff :
    (resume id host).outcome = .error (.config .cellOwnsNoCores) ↔
      host.cells.state id = .hibernated ∧ host.cells.state id.other ≠ .running ∧
        (host.cells.get id).cores.isEmpty = true := by
  constructor
  · intro herror
    rcases ready_or_refused id host with occupied | coreless | ready
    · obtain ⟨log, hrefused⟩ := resume_of_occupied occupied
      rw [hrefused] at herror
      cases herror
    · exact coreless
    · exact absurd herror (not_refused_of_ready hsound hsplit hblocks hlaid ready).2
  · rintro ⟨hibernated, alone, empty⟩
    rw [resume_of_coreless hibernated alone empty]

theorem documented : Documented config id host where
  hibernate := fails_hibernate hsound hsplit hblocks hlaid
  hibernate_refused := hibernate_refused_iff hsound hsplit hblocks hlaid
  hibernated := by
    intro hok
    have hslept := state_of_hibernate_ok
      (show Host.hibernate id host = ⟨.ok (), _, (Host.hibernate id host).log⟩ by rw [← hok])
    have running : host.cells.state id = .running := by
      refine Decidable.byContradiction fun idle => ?_
      rw [hibernate_of_idle idle] at hok
      cases hok
    exact (changes_hibernate id host).own.eq_of_hibernated running hslept
  resume := fails_resume hsound hsplit hblocks hlaid
  resume_refused := resume_refused_iff hsound hsplit hblocks hlaid
  resume_coreless := resume_coreless_iff hsound hsplit hblocks hlaid
  resumed := by
    intro hok
    have hwoke := state_of_resume_ok
      (show Host.resume id host = ⟨.ok (), _, (Host.resume id host).log⟩ by rw [← hok])
    have hibernated : host.cells.state id = .hibernated := by
      refine Decidable.byContradiction fun awake => ?_
      obtain ⟨log, hrefused⟩ := resume_of_occupied (.inl awake)
      rw [hrefused] at hok
      cases hok
    exact (changes_resume id host).own.eq_of_resumed hibernated hwoke
  never := by
    have hhibernate := fails_hibernate hsound hsplit hblocks hlaid
    have hresume := fails_resume hsound hsplit hblocks hlaid
    intro error herror
    simp only [List.mem_cons, List.not_mem_nil, or_false] at herror
    rcases herror with rfl | rfl | rfl
    all_goals exact ⟨hhibernate.ne_of_not_cause nofun nofun,
      hresume.ne_of_not_cause (by simp) nofun⟩

end Documented
end Failures

/-- In whatever comes of the fresh cells of an accepted configuration, on any machine: a hibernation
and a resumption fail cleanly, and in the documented ways alone. -/
theorem fails_as_documented {σ : Type} {state : σ} {leaves : Leaves} {config : Config}
    {topology : Topology} {host : Host SimMachine} (hvalid : config.validate = .ok ())
    (hprobe : (Topology.probe leaves config.linuxCores state).outcome = .ok topology)
    (hblocks : ∀ id, ((config.cells.get id).memory.size.toNat + config.blockSize.toNat - 1) /
      config.blockSize.toNat < UInt32.size)
    (leads : (Cells.fresh config topology).Leads host.cells) (id : CellId) :
    host.Documented config id := by
  have hsound := Config.isSound_of_validate hvalid
  have hlaid : host.cells.Laid config topology :=
    leads.kept (P := Cells.Laid config topology) (Operation.keeps_laid config topology)
      (Cells.laid_fresh config topology)
  have hcount := hblocks id
  rw [← Image.blockCount_eq _ hsound.block_pos] at hcount
  exact documented hsound (Topology.isSplit_of_probe hprobe) hcount hlaid

/-- Linux runs, and copies fail after the first: its hibernation does, and windows is refused. -/
theorem fails_as_documented_uncopied :
    let host := Operation.run [.boot, .disturb (.failCopies 1)] compact
    host.Documented .compact .linux ∧ host.Documented .compact .windows ∧
      (hibernate .linux host).outcome = .error .copyFailed ∧
      (resume .windows host).outcome = .error .invalidState := by
  intro host
  have hprobe : (Topology.probe (SimMachine.ofCores 4).leaf Config.compact.linuxCores ()).outcome =
      .ok .halved := by decide
  have hblocks : ∀ id, ((Config.compact.cells.get id).memory.size.toNat +
      Config.compact.blockSize.toNat - 1) / Config.compact.blockSize.toNat < UInt32.size := by
    rintro (_ | _) <;> decide
  have documented := fails_as_documented validate_compact hprobe hblocks
    (Operation.leads_run [.boot, .disturb (.failCopies 1)] compact)
  exact ⟨documented .linux, documented .windows, by decide +kernel, by decide +kernel⟩

end Host
end CellVisor
