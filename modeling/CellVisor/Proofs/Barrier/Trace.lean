import CellVisor.Proofs.Sim.Prompt

/-!
# CellVisor.Proofs.Barrier.Trace

The events of a rendezvous on the simulated machine.

* `Called`: a signal to each core in ascending order, and then at most one acknowledgment of each.
* `called_rendezvous`: these are the events of a rendezvous, wherever it ends. All cores have
  acknowledged where it succeeds, and not all where it fails.
-/

namespace CellVisor
namespace Barrier

open SimMachine

variable {cores : CoreRange} {signal : Signal} {barrier : Barrier}

/-! ## What is recorded -/

def signals (cores : CoreRange) (signal : Signal) : List SimEvent :=
  cores.toList.map fun core => .signal core signal

def answers (signal : Signal) (acks : List UInt32) : List SimEvent :=
  acks.map fun core => .ack core signal

theorem mem_answers {acks : List UInt32} {core : UInt32} :
    .ack core signal ∈ signals cores signal ++ answers signal acks ↔ core ∈ acks := by
  simp [signals, answers]

/-- Since `start` every core of a range was sent `signal`, and then those of `acks`, each of them
once, have acknowledged it. -/
structure Called (cores : CoreRange) (signal : Signal) (acks : List UInt32)
    (start machine : SimMachine) : Prop where
  events : machine.events = start.events ++ (signals cores signal ++ answers signal acks)
  once : acks.Nodup
  inside : acks ⊆ cores.toList

/-- The cores were called, and the request that each of them holds says whether it has answered. -/
structure Calling (cores : CoreRange) (signal : Signal) (acks : List UInt32)
    (start machine : SimMachine) : Prop extends Called cores signal acks start machine where
  requests : ∀ core ∈ cores.toList,
    (machine.core core).request = some ⟨signal, decide (core ∈ acks)⟩

section Calling

variable {start machine : SimMachine} {acks : List UInt32}

theorem events_of_signalAll {list : List UInt32} {after : SimMachine} {log : List Notice}
    (h : signalAll signal list machine = ⟨.ok (), after, log⟩) :
    after.events = machine.events ++ list.map fun core => .signal core signal := by
  induction list generalizing machine with
  | nil =>
    cases h
    simp
  | cons core rest ih =>
    cases hsignal : Machine.signal core signal machine with
    | error error =>
      rw [signalAll_cons_of_error hsignal] at h
      cases h
    | ok next =>
      rw [signalAll_cons_of_ok hsignal] at h
      simp [ih h, events_of_signalCore hsignal]

/-- Once all are signalled, none has answered. -/
theorem calling_of_signalAll {after : SimMachine} {log : List Notice}
    (h : signalAll signal cores.toList machine = ⟨.ok (), after, log⟩) :
    Calling cores signal [] machine after where
  events := by simp [events_of_signalAll h, signals, answers]
  once := List.nodup_nil
  inside := List.nil_subset _
  requests := by
    intro core hcore
    simp [core_of_signalAll h, hcore]

theorem Calling.timed {time : UInt64} {next : SimMachine}
    (h : Calling cores signal acks start machine)
    (clock : Machine.now machine = some (time, next)) :
    Calling cores signal acks start next := by
  obtain ⟨-, rfl⟩ := now_eq_some.1 clock
  exact ⟨⟨h.events, h.once, h.inside⟩, h.requests⟩

theorem Calling.asked (h : Calling cores signal acks start machine) {id : UInt32}
    (hid : id ∈ cores.toList) :
    ∃ acks, Calling cores signal acks start (SimMachine.acknowledged id signal machine).2 := by
  have hevents := events_acknowledged id signal machine
  have hcores := core_acknowledged id signal machine
  by_cases hanswer : (machine.core id).answer signal = .now
  · have hrequest := Sim.Core.request_of_now hanswer
    have hfirst : id ∉ acks := by
      rw [h.requests id hid] at hrequest
      simpa using hrequest
    refine ⟨acks ++ [id], ⟨?_, ?_, ?_⟩, fun core hcore => ?_⟩
    · rw [hevents, if_pos hanswer, h.events]
      simp [answers]
    · refine List.nodup_append.2 ⟨h.once, by simp, fun core hcore other hother => ?_⟩
      rw [List.mem_singleton.1 hother]
      exact fun hsame => hfirst (hsame ▸ hcore)
    · exact List.append_subset.2 ⟨h.inside, by simpa using hid⟩
    · rw [hcores]
      by_cases hcoreId : core = id
      · simp [hcoreId, Sim.Core.asked_of_now hanswer]
      · simp [hcoreId, h.requests core hcore]
  · refine ⟨acks, ⟨?_, h.once, h.inside⟩, fun core hcore => ?_⟩
    · rw [hevents, if_neg hanswer, List.append_nil, h.events]
    · rw [hcores]
      split
      · rename_i hcoreId
        rw [Sim.Core.request_asked_of_ne hanswer, ← hcoreId, h.requests core hcore]
      · exact h.requests core hcore

theorem enduring_calling (start : SimMachine) :
    Enduring (fun machine => ∃ acks, Calling cores signal acks start machine) cores signal where
  asked := fun hcore ⟨_, h⟩ => h.asked hcore
  timed := fun clock ⟨acks, h⟩ => ⟨acks, h.timed clock⟩

end Calling

/-! ## Who is late -/

section Late

variable {machine : SimMachine}

/-- To ask a core changes nothing about the others. -/
theorem core_acknowledged_of_mem {list : List UInt32} {core : UInt32} (h : core ∉ list) :
    ∀ other ∈ list, (Machine.acknowledged core signal machine).2.core other =
      machine.core other := by
  intro other hother
  refine (core_acknowledged core signal machine other).trans (if_neg ?_)
  rintro rfl
  exact h hother

theorem core_pollAll_of_not_mem {list : List UInt32} {core : UInt32} (h : core ∉ list) :
    (pollAll signal list machine).2.core core = machine.core core := by
  induction list generalizing machine with
  | nil => rfl
  | cons id rest ih =>
    obtain ⟨hid, hrest⟩ := not_or.1 (mt List.mem_cons.2 h)
    unfold pollAll
    dsimp only
    rw [ih hrest]
    exact (core_acknowledged id signal machine core).trans (if_neg hid)

/-- A core that is asked once in a round, and is still late after it, has not answered. -/
theorem request_of_pollAll {list : List UInt32} (once : list.Nodup)
    (h : ∀ core ∈ list, (machine.core core).request = some ⟨signal, false⟩) :
    ∀ core ∈ (pollAll signal list machine).1,
      ((pollAll signal list machine).2.core core).request = some ⟨signal, false⟩ := by
  induction list generalizing machine with
  | nil => simp [pollAll]
  | cons id rest ih =>
    obtain ⟨hnew, hrest⟩ := List.nodup_cons.1 once
    have hasked := core_acknowledged id signal machine
    have hnext : ∀ core ∈ rest, ((Machine.acknowledged id signal machine).2.core core).request =
        some ⟨signal, false⟩ := by
      intro core hcore
      rw [core_acknowledged_of_mem hnew core hcore]
      exact h core (List.mem_cons_of_mem _ hcore)
    have hlate := ih hrest hnext
    intro core hcore
    unfold pollAll at hcore ⊢
    dsimp only at hcore ⊢
    split at hcore
    · exact hlate core hcore
    · rename_i hsilent
      rcases List.mem_cons.1 hcore with rfl | hcore
      · have hpending : (machine.core core).answer signal = .pending := by
          refine Decidable.byContradiction fun hanswer => hsilent ?_
          exact (acknowledged_fst core signal machine).trans (decide_eq_true hanswer)
        have hnow : (machine.core core).answer signal ≠ .now := by simp [hpending]
        rw [core_pollAll_of_not_mem hnew]
        refine (congrArg Sim.Core.request (hasked core)).trans ?_
        rw [if_pos rfl, Sim.Core.request_asked_of_ne hnow]
        exact h core (List.mem_cons_self ..)
      · exact hlate core hcore

/-- The cores that a wait gives back have not answered. -/
theorem request_of_await {timeout time : UInt64} {rounds : Nat} {pending late : List UInt32}
    {after : SimMachine} {log : List Notice} (once : pending.Nodup)
    (h : ∀ core ∈ pending, (machine.core core).request = some ⟨signal, false⟩)
    (waiting : await signal timeout time rounds pending machine = ⟨.ok late, after, log⟩) :
    ∀ core ∈ late, (after.core core).request = some ⟨signal, false⟩ := by
  induction rounds generalizing pending machine with
  | zero =>
    cases waiting
    exact h
  | succ rounds ih =>
    have hpolled := request_of_pollAll once h
    have hlate := (pollAll_sublist signal pending machine).nodup once
    rw [await] at waiting
    dsimp only at waiting
    split at waiting
    · cases waiting
      simp
    · split at waiting
      · cases waiting
      · rename_i now next clock
        obtain ⟨-, rfl⟩ := now_eq_some.1 clock
        split at waiting
        · cases waiting
          exact hpolled
        · refine ih hlate ?_ waiting
          exact hpolled

end Late

/-! ## The whole -/

/-- A rendezvous signals every core in ascending order, and then records the acknowledgments; all of
them where it succeeds, and not all where it fails. -/
theorem called_rendezvous (hcores : cores.stop.toNat ≤ maxCores) (barrier : Barrier)
    (signal : Signal) (machine : SimMachine) :
    ∃ acks, Called cores signal acks machine (barrier.rendezvous cores signal machine).state ∧
      ((barrier.rendezvous cores signal machine).outcome = .ok () → acks.Perm cores.toList) ∧
      ∀ error, (barrier.rendezvous cores signal machine).outcome = .error error →
        ∃ core ∈ cores.toList, core ∉ acks := by
  have hcourse := rendezvous_cases barrier cores signal machine
  generalize barrier.rendezvous cores signal machine = reply at hcourse ⊢
  obtain ⟨hnarrow, after, hafter⟩ := signalAll_toList hcores signal machine
  have hwait : ∀ {timeout time rounds}, Action.Keeps
      (fun machine' => ∃ acks, Calling cores signal acks machine machine')
      (await signal timeout time rounds cores.toList) :=
    keeps_await (enduring_calling machine) _ _ _ (List.Subset.refl cores.toList)
  cases hcourse with
  | tooWide wide => exact absurd hnarrow (UInt32.not_le.2 wide)
  | refused _ signals =>
    rw [hafter] at signals
    cases signals
  | clockless _ signals =>
    exact ⟨[], (calling_of_signalAll signals).toCalled, by simp, by simp⟩
  | halted _ signals clock waiting =>
    have hcalling := (calling_of_signalAll signals).timed clock
    obtain ⟨acks, hcalled⟩ := hwait.of_eq ⟨[], hcalling⟩ waiting
    exact ⟨acks, hcalled.toCalled, by simp, by simp⟩
  | answered _ signals clock waiting =>
    have hcalling := (calling_of_signalAll signals).timed clock
    obtain ⟨acks, hcalled⟩ := hwait.of_eq ⟨[], hcalling⟩ waiting
    refine ⟨acks, hcalled.toCalled, fun _ => ?_, by simp⟩
    have hsettled := settled_of_await (List.Subset.refl cores.toList)
      (fun core hcore => ⟨false, by simpa using hcalling.requests core hcore, by simp⟩) waiting
    refine (List.perm_ext_iff_of_nodup hcalled.once cores.nodup_toList).2 fun core => ?_
    refine ⟨fun hcore => hcalled.inside hcore, fun hcore => ?_⟩
    have hrequest := (hsettled core hcore).1
    rw [hcalled.requests core hcore] at hrequest
    simpa using hrequest
  | @timedOut _ _ _ _ core late _ signals clock waiting member =>
    have hcalling := (calling_of_signalAll signals).timed clock
    obtain ⟨acks, hcalled⟩ := hwait.of_eq ⟨[], hcalling⟩ waiting
    refine ⟨acks, hcalled.toCalled, by simp, fun _ _ => ⟨core, member, fun hcore => ?_⟩⟩
    have hlate := request_of_await cores.nodup_toList
      (fun core hcore => by simpa using hcalling.requests core hcore) waiting core
      (List.mem_cons_self ..)
    rw [hcalled.requests core member] at hlate
    simp [hcore] at hlate

end Barrier
end CellVisor
