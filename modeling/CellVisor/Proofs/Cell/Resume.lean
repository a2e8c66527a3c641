import CellVisor.Proofs.Cell.Steps

/-!
# CellVisor.Proofs.Cell.Resume

The resumption of a cell and the start of both cells on any machine: how they can go.

* `resume_cases`: a resumption is refused, or it fails or halts in the copy or in the thaw, or it
  succeeds; with the state and the notices that it leaves in each case.
* `boot_cases`: the same for the start.
-/

namespace CellVisor

variable {M : Type} [Machine M]

namespace Cell

def startContexts (cell : Cell) : List SavedContext :=
  cell.cores.toList.map fun core => ⟨core, Context.startingAt cell.entry⟩

end Cell

namespace Host

/-- `loaded` is the machine on which a cell is thawed, after `log`. -/
inductive Loaded (cells : Cells) (id : CellId) (machine : M) : M → List Notice → Prop where
  | image {count : UInt32} {copied : M} {log : List Notice}
      (image : (cells.get id).hasImage = true)
      (copy : cells.loadImage id machine = ⟨.ok count, copied, log⟩) :
      Loaded cells id machine (setContexts (cells.get id).saved copied) log
  | start (none : (cells.get id).hasImage = false) :
      Loaded cells id machine (setContexts (cells.get id).startContexts machine)
        [.coldStart id (cells.get id).entry]

structure Ready (id : CellId) (cells : Cells) : Prop where
  hibernated : cells.state id = .hibernated
  alone : cells.state id.other ≠ .running
  owned : (cells.get id).cores.isEmpty = false

/-- How the resumption of the cell `id` goes. -/
inductive Resumption (id : CellId) (host : Host M) : Reply (Host M) Unit → Prop where
  | refused (awake : host.cells.state id ≠ .hibernated) :
      Resumption id host ⟨.error .invalidState, host, []⟩
  | contended (hibernated : host.cells.state id = .hibernated)
      (running : host.cells.state id.other = .running) :
      Resumption id host ⟨.error .invalidState, host, [.resumeRefused id]⟩
  | coreless (hibernated : host.cells.state id = .hibernated)
      (alone : host.cells.state id.other ≠ .running)
      (empty : (host.cells.get id).cores.isEmpty = true) :
      Resumption id host ⟨.error (.config .cellOwnsNoCores), host, []⟩
  | copyHalted {fault : Fault} {copied : M} {log : List Notice} (ready : Ready id host.cells)
      (image : (host.cells.get id).hasImage = true)
      (copy : host.cells.loadImage id host.machine = ⟨.fault fault, copied, log⟩) :
      Resumption id host ⟨.fault fault, ⟨copied, host.cells⟩, log⟩
  | uncopied {error : Error} {copied : M} {log : List Notice} (ready : Ready id host.cells)
      (image : (host.cells.get id).hasImage = true)
      (copy : host.cells.loadImage id host.machine = ⟨.error error, copied, log⟩) :
      Resumption id host
        ⟨.error error, ⟨copied, host.cells.moveTo id .error⟩,
          log ++ [.resumeFailed id error, .cellFailed id .hibernated]⟩
  | thawHalted {fault : Fault} {loaded thawed : M} {log thawLog : List Notice}
      (ready : Ready id host.cells) (load : Loaded host.cells id host.machine loaded log)
      (thaw : host.cells.call id .thaw loaded = ⟨.fault fault, thawed, thawLog⟩) :
      Resumption id host ⟨.fault fault, ⟨thawed, host.cells⟩, log ++ thawLog⟩
  | unthawed {error : Error} {loaded thawed : M} {log thawLog : List Notice}
      (ready : Ready id host.cells) (load : Loaded host.cells id host.machine loaded log)
      (thaw : host.cells.call id .thaw loaded = ⟨.error error, thawed, thawLog⟩) :
      Resumption id host
        ⟨.error error, ⟨thawed, host.cells.moveTo id .error⟩,
          log ++ thawLog ++ [.resumeFailed id error, .cellFailed id .hibernated]⟩
  | resumed {loaded thawed : M} {log thawLog : List Notice}
      (ready : Ready id host.cells) (load : Loaded host.cells id host.machine loaded log)
      (thaw : host.cells.call id .thaw loaded = ⟨.ok (), thawed, thawLog⟩) :
      Resumption id host
        ⟨.ok (), ⟨thawed, host.cells.moveTo id .running⟩,
          log ++ thawLog ++ [.cellEntered id .hibernated .running, .cellResumed id]⟩

variable {id : CellId} {host : Host M}

/-! ## Its parts -/

theorem restore_of_uncopied {error : Error} {copied : M} {log : List Notice}
    (image : (host.cells.get id).hasImage = true)
    (copy : host.cells.loadImage id host.machine = ⟨.error error, copied, log⟩) :
    restore id host = ⟨.error error, ⟨copied, host.cells⟩, log⟩ := by
  have hcopy : onMachine (host.cells.loadImage id) host =
      ⟨.error error, { host with machine := copied }, log⟩ := onMachine_apply copy
  unfold restore
  rw [Action.bind_of_ok (Action.get_apply host), Reply.after_nil]
  dsimp only
  rw [if_pos image]
  exact Action.bind_of_error hcopy

theorem restore_of_halted {fault : Fault} {copied : M} {log : List Notice}
    (image : (host.cells.get id).hasImage = true)
    (copy : host.cells.loadImage id host.machine = ⟨.fault fault, copied, log⟩) :
    restore id host = ⟨.fault fault, ⟨copied, host.cells⟩, log⟩ := by
  have hcopy : onMachine (host.cells.loadImage id) host =
      ⟨.fault fault, { host with machine := copied }, log⟩ := onMachine_apply copy
  unfold restore
  rw [Action.bind_of_ok (Action.get_apply host), Reply.after_nil]
  dsimp only
  rw [if_pos image]
  exact Action.bind_of_fault hcopy

/-- Once a cell is loaded, what is left of its restoration is the thaw. -/
theorem restore_of_loaded {loaded thawed : M} {outcome : Outcome Unit} {log thawLog : List Notice}
    (load : Loaded host.cells id host.machine loaded log)
    (thaw : host.cells.call id .thaw loaded = ⟨outcome, thawed, thawLog⟩) :
    restore id host = ⟨outcome, ⟨thawed, host.cells⟩, log ++ thawLog⟩ := by
  have hthaw : rendezvous id .thaw (⟨loaded, host.cells⟩ : Host M) =
      ⟨outcome, ⟨thawed, host.cells⟩, thawLog⟩ := rendezvous_apply thaw
  unfold restore
  rw [Action.bind_of_ok (Action.get_apply host), Reply.after_nil]
  dsimp only
  cases load with
  | @image count copied log image copy =>
    have hcopy : onMachine (host.cells.loadImage id) host =
        ⟨.ok count, { host with machine := copied }, log⟩ := onMachine_apply copy
    have hset : onMachine (Action.update (setContexts (host.cells.get id).saved))
        (⟨copied, host.cells⟩ : Host M) =
        ⟨.ok (), ⟨setContexts (host.cells.get id).saved copied, host.cells⟩, []⟩ :=
      onMachine_apply (Action.update_apply _ _)
    rw [if_pos image]
    refine (Action.bind_of_ok hcopy).trans ?_
    rw [Action.bind_of_ok hset, Reply.after_nil, hthaw, Reply.after_mk]
  | start none =>
    have hset : onMachine (Action.update (setContexts (host.cells.get id).startContexts)) host =
        ⟨.ok (), ⟨setContexts (host.cells.get id).startContexts host.machine, host.cells⟩, []⟩ :=
      onMachine_apply (Action.update_apply _ _)
    rw [if_neg (by simp [none]), Action.note_bind]
    have hrest : (do
        onMachine (Action.update (setContexts (host.cells.get id).startContexts))
        rendezvous id .thaw) host = ⟨outcome, ⟨thawed, host.cells⟩, thawLog⟩ := by
      rw [Action.bind_of_ok hset, Reply.after_nil, hthaw]
    exact congrArg (Reply.after · [.coldStart id (host.cells.get id).entry]) hrest

/-! ## The whole -/

theorem resume_of_fault {fault : Fault} {after : Host M} {log : List Notice}
    (ready : Ready id host.cells) (restore : restore id host = ⟨.fault fault, after, log⟩) :
    resume id host = ⟨.fault fault, after, log⟩ := by
  unfold resume
  rw [Action.bind_of_ok (Action.get_apply host), Reply.after_nil,
    if_neg fun h => h ready.hibernated]
  dsimp only
  rw [if_neg ready.alone, if_neg (by simp [ready.owned]),
    Action.bind_of_fault (Action.attempt_of_fault restore)]

theorem resume_of_error {error : Error} {after : M} {log : List Notice}
    (ready : Ready id host.cells)
    (restore : restore id host = ⟨.error error, ⟨after, host.cells⟩, log⟩) :
    resume id host =
      ⟨.error error, ⟨after, host.cells.moveTo id .error⟩,
        log ++ [.resumeFailed id error, .cellFailed id .hibernated]⟩ := by
  have hne : (⟨after, host.cells⟩ : Host M).cells.state id ≠ .error := by
    rw [ready.hibernated]
    decide
  unfold resume
  rw [Action.bind_of_ok (Action.get_apply host), Reply.after_nil,
    if_neg fun h => h ready.hibernated]
  dsimp only
  rw [if_neg ready.alone, if_neg (by simp [ready.owned]),
    Action.bind_of_ok (Action.attempt_of_error restore)]
  dsimp only
  rw [Action.note_bind, Action.bind_of_ok (markFailed_of_ne hne)]
  simp [ready.hibernated]

theorem resume_of_ok {after : M} {log : List Notice} (ready : Ready id host.cells)
    (restore : restore id host = ⟨.ok (), ⟨after, host.cells⟩, log⟩) :
    resume id host =
      ⟨.ok (), ⟨after, host.cells.moveTo id .running⟩,
        log ++ [.cellEntered id .hibernated .running, .cellResumed id]⟩ := by
  have henter : ((⟨after, host.cells⟩ : Host M).cells.state id).canEnter .running = true := by
    rw [ready.hibernated]
    rfl
  unfold resume
  rw [Action.bind_of_ok (Action.get_apply host), Reply.after_nil,
    if_neg fun h => h ready.hibernated]
  dsimp only
  rw [if_neg ready.alone, if_neg (by simp [ready.owned]),
    Action.bind_of_ok (Action.attempt_of_ok restore)]
  dsimp only
  rw [Action.bind_of_ok (enter_of_canEnter henter)]
  simp [ready.hibernated]

theorem resume_of_loaded {loaded : M} {log : List Notice} (ready : Ready id host.cells)
    (load : Loaded host.cells id host.machine loaded log) :
    Resumption id host (resume id host) := by
  cases thaw : host.cells.call id .thaw loaded with
  | mk outcome thawed thawLog =>
    have hrestore := restore_of_loaded load thaw
    cases outcome with
    | ok =>
      rw [resume_of_ok ready hrestore]
      exact .resumed ready load thaw
    | error error =>
      rw [resume_of_error ready hrestore]
      exact .unthawed ready load thaw
    | fault fault =>
      rw [resume_of_fault ready hrestore]
      exact .thawHalted ready load thaw

theorem resume_of_ready (ready : Ready id host.cells) : Resumption id host (resume id host) := by
  cases image : (host.cells.get id).hasImage with
  | false => exact resume_of_loaded ready (.start image)
  | true =>
    cases copy : host.cells.loadImage id host.machine with
    | mk outcome copied log =>
      cases outcome with
      | ok count => exact resume_of_loaded ready (.image image copy)
      | error error =>
        rw [resume_of_error ready (restore_of_uncopied image copy)]
        exact .uncopied ready image copy
      | fault fault =>
        rw [resume_of_fault ready (restore_of_halted image copy)]
        exact .copyHalted ready image copy

theorem resume_cases (id : CellId) (host : Host M) : Resumption id host (resume id host) := by
  by_cases hibernated : host.cells.state id = .hibernated
  · by_cases running : host.cells.state id.other = .running
    · unfold resume
      rw [Action.bind_of_ok (Action.get_apply host), Reply.after_nil,
        if_neg fun h => h hibernated]
      dsimp only
      rw [if_pos running]
      exact .contended hibernated running
    · cases empty : (host.cells.get id).cores.isEmpty with
      | true =>
        unfold resume
        rw [Action.bind_of_ok (Action.get_apply host), Reply.after_nil,
          if_neg fun h => h hibernated]
        dsimp only
        rw [if_neg running, if_pos empty]
        exact .coreless hibernated running empty
      | false => exact resume_of_ready ⟨hibernated, running, empty⟩
  · unfold resume
    rw [Action.bind_of_ok (Action.get_apply host), Reply.after_nil, if_pos hibernated]
    exact .refused hibernated

/-! ## The start -/

inductive Booting (host : Host M) : Reply (Host M) Unit → Prop where
  | refused (started : host.cells.state .linux ≠ .initializing ∨
        host.cells.state .windows ≠ .initializing) :
      Booting host ⟨.error .invalidState, host, []⟩
  | halted {fault : Fault} {frozen : M} {log : List Notice}
      (linux : host.cells.state .linux = .initializing)
      (windows : host.cells.state .windows = .initializing)
      (freeze : host.cells.call .windows .freeze host.machine = ⟨.fault fault, frozen, log⟩) :
      Booting host
        ⟨.fault fault, ⟨frozen, host.cells.moveTo .linux .running⟩,
          .cellEntered .linux .initializing .running :: log⟩
  | unparked {error : Error} {frozen : M} {log : List Notice}
      (linux : host.cells.state .linux = .initializing)
      (windows : host.cells.state .windows = .initializing)
      (freeze : host.cells.call .windows .freeze host.machine = ⟨.error error, frozen, log⟩) :
      Booting host
        ⟨.ok (), ⟨frozen, (host.cells.moveTo .linux .running).moveTo .windows .error⟩,
          .cellEntered .linux .initializing .running :: log ++
            [.parkingFailed .windows error, .cellFailed .windows .initializing]⟩
  | parked {frozen : M} {log : List Notice}
      (linux : host.cells.state .linux = .initializing)
      (windows : host.cells.state .windows = .initializing)
      (freeze : host.cells.call .windows .freeze host.machine = ⟨.ok (), frozen, log⟩) :
      Booting host
        ⟨.ok (), ⟨frozen, (host.cells.moveTo .linux .running).moveTo .windows .hibernated⟩,
          .cellEntered .linux .initializing .running :: log ++
            [.cellEntered .windows .initializing .hibernated,
              .cellsBooted (host.cells.get .windows).cores]⟩

theorem boot_cases (host : Host M) : Booting host (boot host) := by
  unfold boot
  rw [Action.bind_of_ok (Action.get_apply host), Reply.after_nil]
  by_cases started : host.cells.state .linux ≠ .initializing ∨
      host.cells.state .windows ≠ .initializing
  · rw [if_pos started]
    exact .refused started
  · obtain ⟨linux, windows⟩ := not_or.1 started
    rw [Decidable.not_not] at linux windows
    have henter : (host.cells.state .linux).canEnter .running = true := by
      rw [linux]
      rfl
    rw [if_neg started]
    dsimp only
    rw [Action.bind_of_ok (enter_of_canEnter henter), linux]
    let started : Host M := { host with cells := host.cells.moveTo .linux .running }
    have hwindows : started.cells.state .windows = .initializing := by
      rw [← windows]
      exact Cells.state_moveTo_of_ne host.cells (by decide) .running
    cases freeze : host.cells.call .windows .freeze host.machine with
    | mk outcome frozen log =>
      have hfreeze : rendezvous .windows .freeze started =
          ⟨outcome, { started with machine := frozen }, log⟩ := rendezvous_apply freeze
      cases outcome with
      | fault fault =>
        rw [Action.bind_of_fault (Action.attempt_of_fault hfreeze)]
        exact .halted linux windows freeze
      | error error =>
        have hne : (⟨frozen, started.cells⟩ : Host M).cells.state .windows ≠ .error := by
          rw [hwindows]
          decide
        rw [Action.bind_of_ok (Action.attempt_of_error hfreeze)]
        dsimp only
        rw [Action.note_bind, markFailed_of_ne hne, hwindows]
        exact .unparked linux windows freeze
      | ok =>
        have hcan : ((⟨frozen, started.cells⟩ : Host M).cells.state .windows).canEnter
            .hibernated = true := by
          rw [hwindows]
          rfl
        rw [Action.bind_of_ok (Action.attempt_of_ok hfreeze)]
        dsimp only
        rw [Action.bind_of_ok (enter_of_canEnter hcan), hwindows]
        exact .parked linux windows freeze

end Host
end CellVisor
