import CellVisor.Sim.Machine

/-!
# CellVisor.Proofs.Sim.Primitives

What each primitive of the simulated machine does to what can be seen of it: the cores, the events,
the memory and the clock.

* `signalCore_eq_ok`: a signal reaches a core that has a mailbox, and nothing else.
* `core_acknowledged`, `events_acknowledged`: a question concerns the core that is asked; an event
  is recorded exactly when the core acknowledges now.
* `copy_cases`: a copy fails and leaves memory and events alone, or is done and recorded.
* `now_eq_some`: a reading moves the clock by one tick and nothing else.
-/

namespace CellVisor
namespace Sim
namespace Core

@[simp] theorem context_post (core : Core) (signal : Signal) :
    (core.post signal).context = core.context := rfl

@[simp] theorem parked_post (core : Core) (signal : Signal) :
    (core.post signal).parked = core.parked := rfl

@[simp] theorem request_post (core : Core) (signal : Signal) :
    (core.post signal).request = some { signal } := rfl

theorem answer_of_holdoff {core : Core} (h : 0 < core.holdoff) (signal : Signal) :
    core.answer signal = .pending := by
  simp [answer, h]

theorem asked_of_now {core : Core} {signal : Signal} (h : core.answer signal = .now) :
    core.asked signal =
      { core with
        parked := signal = .freeze
        request := some { signal, acknowledged := true } } := by
  have hold : ¬ 0 < core.holdoff := fun hold => by
    rw [answer_of_holdoff hold] at h
    cases h
  rw [asked, if_neg hold, h]

@[simp] theorem context_asked (core : Core) (signal : Signal) :
    (core.asked signal).context = core.context := by
  unfold asked
  split
  · rfl
  · split <;> rfl

theorem parked_asked (core : Core) (signal : Signal) :
    (core.asked signal).parked =
      if core.answer signal = .now then decide (signal = .freeze) else core.parked := by
  by_cases h : core.answer signal = .now
  · rw [asked_of_now h, if_pos h]
  · rw [if_neg h, asked]
    split
    · rfl
    · split
      · contradiction
      · rfl

theorem request_asked_of_ne {core : Core} {signal : Signal} (h : core.answer signal ≠ .now) :
    (core.asked signal).request = core.request := by
  unfold asked
  split
  · rfl
  · split
    · contradiction
    · rfl

/-- A core that has acknowledged a signal before holds a request that says so. -/
theorem request_of_before {core : Core} {signal : Signal} (h : core.answer signal = .before) :
    core.request = some { signal, acknowledged := true } := by
  unfold answer at h
  split at h
  · cases h
  · split at h
    · cases h
    · rename_i request hrequest
      split at h
      · cases h
      · rename_i hsignal
        split at h
        · rename_i hacknowledged
          obtain ⟨posted, acknowledged⟩ := request
          simp only [ne_eq, Decidable.not_not] at hsignal
          simp only at hacknowledged
          rw [hrequest, hsignal, hacknowledged]
        · split at h <;> cases h

/-- A core that answers now has not answered before. -/
theorem request_of_now {core : Core} {signal : Signal} (h : core.answer signal = .now) :
    core.request = some { signal } := by
  unfold answer at h
  split at h
  · cases h
  · cases hrequest : core.request with
    | none => simp [hrequest] at h
    | some request =>
      obtain ⟨posted, acknowledged⟩ := request
      by_cases hsignal : posted = signal
      · cases acknowledged <;> simp_all
      · simp [hrequest, hsignal] at h

/-- A core acts on what it answers now. -/
theorem heeds_of_now {core : Core} {signal : Signal} (h : core.answer signal = .now) :
    core.heeds signal = true := by
  have hrequest := request_of_now h
  unfold answer at h
  rw [hrequest] at h
  cases hheeds : core.heeds signal with
  | true => rfl
  | false => simp [hheeds] at h

end Core
end Sim

namespace SimMachine

/-! ## Cores -/

theorem core_setCore (machine : SimMachine) (id other : UInt32) (core : Sim.Core) :
    (machine.setCore id core).core other = if other = id then core else machine.core other :=
  Table.getD_insert _ _ _ _ _

theorem core_modifyCore (machine : SimMachine) (id other : UInt32)
    (change : Sim.Core → Sim.Core) :
    (machine.modifyCore id change).core other =
      if other = id then change (machine.core id) else machine.core other :=
  core_setCore _ _ _ _

@[simp] theorem core_record (machine : SimMachine) (event : SimEvent) (id : UInt32) :
    (machine.record event).core id = machine.core id := rfl

@[simp] theorem isParked_record (machine : SimMachine) (event : SimEvent) :
    (machine.record event).isParked = machine.isParked := rfl

@[simp] theorem events_record (machine : SimMachine) (event : SimEvent) :
    (machine.record event).events = machine.events ++ [event] := by
  simp [events, record]

@[simp] theorem events_setCore (machine : SimMachine) (id : UInt32) (core : Sim.Core) :
    (machine.setCore id core).events = machine.events := rfl

@[simp] theorem events_modifyCore (machine : SimMachine) (id : UInt32)
    (change : Sim.Core → Sim.Core) : (machine.modifyCore id change).events = machine.events := rfl

/-- A change of a core that lets it be where it was leaves every core where it was. -/
theorem isParked_modifyCore {machine : SimMachine} {id : UInt32} {change : Sim.Core → Sim.Core}
    (h : ∀ core, (change core).parked = core.parked) :
    (machine.modifyCore id change).isParked = machine.isParked := by
  funext other
  unfold isParked
  rw [core_modifyCore]
  split
  · rename_i hid
    rw [hid, h]
  · rfl

/-! ## Signals -/

theorem signalCore_eq_ok {id : UInt32} {signal : Signal} {machine next : SimMachine} :
    signalCore id signal machine = .ok next ↔
      id.toNat < maxCores ∧
        next = (machine.modifyCore id fun core => core.post signal).record (.signal id signal) := by
  unfold signalCore
  split
  · rename_i h
    simp only [reduceCtorEq, false_iff, not_and]
    omega
  · rename_i h
    rw [Except.ok.injEq]
    constructor
    · intro hnext
      exact ⟨by omega, hnext.symm⟩
    · rintro ⟨-, hnext⟩
      exact hnext.symm

theorem signalCore_of_lt {id : UInt32} (h : id.toNat < maxCores) (signal : Signal)
    (machine : SimMachine) : ∃ next, signalCore id signal machine = .ok next :=
  ⟨_, signalCore_eq_ok.2 ⟨h, rfl⟩⟩

section Signal

variable {id : UInt32} {signal : Signal} {machine next : SimMachine}

theorem core_of_signalCore (h : signalCore id signal machine = .ok next) (other : UInt32) :
    next.core other =
      if other = id then (machine.core id).post signal else machine.core other := by
  obtain ⟨-, rfl⟩ := signalCore_eq_ok.1 h
  rw [core_record, core_modifyCore]

theorem events_of_signalCore (h : signalCore id signal machine = .ok next) :
    next.events = machine.events ++ [.signal id signal] := by
  obtain ⟨-, rfl⟩ := signalCore_eq_ok.1 h
  rw [events_record, events_modifyCore]

theorem isParked_of_signalCore (h : signalCore id signal machine = .ok next) :
    next.isParked = machine.isParked := by
  obtain ⟨-, rfl⟩ := signalCore_eq_ok.1 h
  rw [isParked_record]
  exact isParked_modifyCore fun _ => rfl

theorem context_of_signalCore (h : signalCore id signal machine = .ok next) :
    next.context = machine.context := by
  funext other
  unfold context
  rw [core_of_signalCore h]
  split
  · rename_i hid
    rw [hid, Sim.Core.context_post]
  · rfl

theorem memory_of_signalCore (h : signalCore id signal machine = .ok next) :
    next.memory = machine.memory := by
  obtain ⟨-, rfl⟩ := signalCore_eq_ok.1 h
  rfl

theorem clock_of_signalCore (h : signalCore id signal machine = .ok next) :
    next.clock = machine.clock := by
  obtain ⟨-, rfl⟩ := signalCore_eq_ok.1 h
  rfl

end Signal

/-! ## Questions -/

section Question

variable (id : UInt32) (signal : Signal) (machine : SimMachine)

theorem acknowledged_fst :
    (acknowledged id signal machine).1 = decide ((machine.core id).answer signal ≠ .pending) := by
  cases h : (machine.core id).answer signal <;> simp [acknowledged, h]

/-- The core that is asked changes, and an acknowledgment given now is recorded. -/
theorem acknowledged_snd :
    (acknowledged id signal machine).2 =
      let next := machine.setCore id ((machine.core id).asked signal)
      if (machine.core id).answer signal = .now then next.record (.ack id signal) else next := by
  cases h : (machine.core id).answer signal <;> simp [acknowledged, h]

theorem core_acknowledged (other : UInt32) :
    (acknowledged id signal machine).2.core other =
      if other = id then (machine.core id).asked signal else machine.core other := by
  rw [acknowledged_snd, ← core_setCore]
  dsimp only
  split <;> rfl

theorem events_acknowledged :
    (acknowledged id signal machine).2.events =
      machine.events ++
        if (machine.core id).answer signal = .now then [.ack id signal] else [] := by
  rw [acknowledged_snd]
  dsimp only
  split
  · rw [events_record, events_setCore]
  · rw [events_setCore, List.append_nil]

theorem isParked_acknowledged (other : UInt32) :
    (acknowledged id signal machine).2.isParked other =
      if other = id ∧ (machine.core id).answer signal = .now then decide (signal = .freeze)
      else machine.isParked other := by
  unfold isParked
  rw [core_acknowledged]
  by_cases hid : other = id
  · rw [if_pos hid, Sim.Core.parked_asked, hid]
    by_cases h : (machine.core id).answer signal = .now
    · rw [if_pos h, if_pos ⟨rfl, h⟩]
    · rw [if_neg h, if_neg fun both => h both.2]
  · rw [if_neg hid, if_neg fun both => hid both.1]

theorem context_acknowledged :
    (acknowledged id signal machine).2.context = machine.context := by
  funext other
  unfold context
  rw [core_acknowledged]
  split
  · rename_i hid
    rw [hid, Sim.Core.context_asked]
  · rfl

theorem memory_acknowledged : (acknowledged id signal machine).2.memory = machine.memory := by
  rw [acknowledged_snd]
  dsimp only
  split <;> rfl

theorem clock_acknowledged : (acknowledged id signal machine).2.clock = machine.clock := by
  rw [acknowledged_snd]
  dsimp only
  split <;> rfl

end Question

/-! ## Contexts -/

theorem context_setContext (machine : SimMachine) (id other : UInt32) (context : Context) :
    (machine.setContext id context).context other =
      if other = id then context else machine.context other := by
  unfold SimMachine.context setContext
  rw [core_modifyCore]
  split <;> rfl

@[simp] theorem isParked_setContext (machine : SimMachine) (id : UInt32) (context : Context) :
    (machine.setContext id context).isParked = machine.isParked :=
  isParked_modifyCore fun _ => rfl

@[simp] theorem events_setContext (machine : SimMachine) (id : UInt32) (context : Context) :
    (machine.setContext id context).events = machine.events := rfl

@[simp] theorem memory_setContext (machine : SimMachine) (id : UInt32) (context : Context) :
    (machine.setContext id context).memory = machine.memory := rfl

@[simp] theorem clock_setContext (machine : SimMachine) (id : UInt32) (context : Context) :
    (machine.setContext id context).clock = machine.clock := rfl

/-! ## Memory and time -/

inductive Copied (target source size : UInt64) (machine : SimMachine) :
    Except Error Unit × SimMachine → Prop where
  /-- Nothing is copied; a copy that was to succeed may have been counted. -/
  | failed (copiesLeft : Option Nat) :
      Copied target source size machine (.error .copyFailed, { machine with copiesLeft })
  | done (copiesLeft : Option Nat) (targetFits : target.toNat + size.toNat < UInt64.size)
      (sourceFits : source.toNat + size.toNat < UInt64.size) :
      Copied target source size machine
        (.ok (), { machine with
          copiesLeft
          memory := machine.memory.copy target source size
          history := .copy target source size :: machine.history })

theorem copy_cases (target source size : UInt64) (machine : SimMachine) :
    Copied target source size machine (machine.copy target source size) := by
  unfold copy
  split
  · exact .failed machine.copiesLeft
  · split
    · exact .failed _
    · rename_i hfits
      simp only [Option.isNone_iff_eq_none, Word.add?_eq_none_iff, not_or, Nat.not_le] at hfits
      exact .done _ hfits.2 hfits.1

/-- The next `count` copies are not made to fail. -/
def Affords (machine : SimMachine) (count : Nat) : Prop :=
  ∀ left, machine.copiesLeft = some left → count ≤ left

theorem copy_of_affords {target source size : UInt64} {machine : SimMachine}
    (affords : machine.Affords 1) (htarget : target.toNat + size.toNat < UInt64.size)
    (hsource : source.toNat + size.toNat < UInt64.size) :
    machine.copy target source size =
      (.ok (), { machine with
        copiesLeft := machine.copiesLeft.map (· - 1)
        memory := machine.memory.copy target source size
        history := .copy target source size :: machine.history }) := by
  have hleft : machine.copiesLeft ≠ some 0 := fun hnone => absurd (affords 0 hnone) (by decide)
  have hfits : ¬ ((Word.add? source size).isNone ∨ (Word.add? target size).isNone) := by
    simp only [Option.isNone_iff_eq_none, Word.add?_eq_none_iff]
    omega
  unfold copy
  rw [if_neg hleft]
  dsimp only
  rw [if_neg hfits]
  rfl

theorem fst_copy_of_unlimited {target source size : UInt64} {machine : SimMachine}
    (unlimited : machine.copiesLeft = none) (htarget : target.toNat + size.toNat < UInt64.size)
    (hsource : source.toNat + size.toNat < UInt64.size) :
    (machine.copy target source size).1 = .ok () := by
  have affords : machine.Affords 1 := fun left hleft => by
    rw [unlimited] at hleft
    cases hleft
  rw [copy_of_affords affords htarget hsource]

theorem now_eq_some {machine next : SimMachine} {time : UInt64} :
    machine.now = some (time, next) ↔
      machine.clock.toNat + 10 = time.toNat ∧ next = { machine with clock := time } := by
  unfold now
  rw [Option.map_eq_some_iff]
  constructor
  · rintro ⟨clock, hclock, heq⟩
    obtain ⟨rfl, rfl⟩ := Prod.mk.inj heq
    exact ⟨Word.add?_eq_some_iff.1 hclock, rfl⟩
  · rintro ⟨htime, rfl⟩
    exact ⟨time, Word.add?_eq_some_iff.2 htime, rfl⟩

theorem now_eq_none {machine : SimMachine} :
    machine.now = none ↔ UInt64.size ≤ machine.clock.toNat + 10 := by
  unfold now
  rw [Option.map_eq_none_iff, Word.add?_eq_none_iff]
  rfl

end SimMachine
end CellVisor
