import CellVisor.Proofs.Barrier.Rendezvous
import CellVisor.Proofs.Sim.Primitives

/-!
# CellVisor.Proofs.Barrier.Answers

The rendezvous on the simulated machine: what its outcome says about the cores and the clock.

* `isParked_of_rendezvous`: when a rendezvous succeeds, every core of the range is where the signal
  sends it. The invariant is `Posted`: from the signal on, a core that has acknowledged it has
  obeyed.
* `error_of_rendezvous`: with cores that have mailboxes, the only error is a core that is late.
* `clock_rendezvous`: how far the clock moves on at most, and that a rendezvous halts only where
  the clock would have left its word.
-/

namespace CellVisor
namespace Barrier

open SimMachine

variable {cores : CoreRange} {signal : Signal} {barrier : Barrier}

/-! ## Answers -/

/-- `signal` is the last one that was posted to `core`, and the core has obeyed if it says so. -/
def Posted (core : UInt32) (signal : Signal) (machine : SimMachine) : Prop :=
  ∃ acknowledged, (machine.core core).request = some ⟨signal, acknowledged⟩ ∧
    (acknowledged = true → machine.isParked core = decide (signal = .freeze))

def Settled (core : UInt32) (signal : Signal) (machine : SimMachine) : Prop :=
  (machine.core core).request = some ⟨signal, true⟩ ∧
    machine.isParked core = decide (signal = .freeze)

theorem posted_of_signalCore {id : UInt32} {machine next : SimMachine}
    (h : signalCore id signal machine = .ok next) : Posted id signal next := by
  refine ⟨false, ?_, by simp⟩
  rw [core_of_signalCore h, if_pos rfl, Sim.Core.request_post]

theorem stable_posted (cores : CoreRange) (signal : Signal) (core : UInt32) :
    Stable (Posted core signal) cores signal where
  signalled := by
    rintro id machine next - h hposted
    by_cases hid : core = id
    · rw [hid]
      exact posted_of_signalCore h
    · unfold Posted
      rw [isParked_of_signalCore h, core_of_signalCore h, if_neg hid]
      exact hposted
  asked := by
    rintro id machine - ⟨acknowledged, hrequest, hobeyed⟩
    show Posted core signal (SimMachine.acknowledged id signal machine).2
    unfold Posted
    rw [isParked_acknowledged, core_acknowledged]
    by_cases hid : core = id
    · subst hid
      by_cases hanswer : (machine.core core).answer signal = .now
      · refine ⟨true, ?_, fun _ => ?_⟩
        · rw [if_pos rfl, Sim.Core.asked_of_now hanswer]
        · rw [if_pos ⟨rfl, hanswer⟩]
      · rw [if_pos rfl, Sim.Core.request_asked_of_ne hanswer, if_neg fun h => hanswer h.2]
        exact ⟨acknowledged, hrequest, hobeyed⟩
    · rw [if_neg hid, if_neg fun h => hid h.1]
      exact ⟨acknowledged, hrequest, hobeyed⟩
  timed := by
    rintro machine time next h hposted
    obtain ⟨-, rfl⟩ := now_eq_some.1 h
    exact hposted

theorem enduring_settled (cores : CoreRange) (signal : Signal) (core : UInt32) :
    Enduring (Settled core signal) cores signal where
  asked := by
    rintro id machine - ⟨hrequest, hobeyed⟩
    show Settled core signal (SimMachine.acknowledged id signal machine).2
    unfold Settled
    rw [isParked_acknowledged, core_acknowledged]
    by_cases hid : core = id
    · subst hid
      by_cases hanswer : (machine.core core).answer signal = .now
      · rw [if_pos rfl, if_pos ⟨rfl, hanswer⟩, Sim.Core.asked_of_now hanswer]
        exact ⟨rfl, rfl⟩
      · rw [if_pos rfl, if_neg fun h => hanswer h.2, Sim.Core.request_asked_of_ne hanswer]
        exact ⟨hrequest, hobeyed⟩
    · rw [if_neg hid, if_neg fun h => hid h.1]
      exact ⟨hrequest, hobeyed⟩
  timed := by
    rintro machine time next h hsettled
    obtain ⟨-, rfl⟩ := now_eq_some.1 h
    exact hsettled

theorem settled_of_acknowledged {core : UInt32} {machine : SimMachine}
    (hposted : Posted core signal machine)
    (h : (SimMachine.acknowledged core signal machine).1 = true) :
    Settled core signal (SimMachine.acknowledged core signal machine).2 := by
  obtain ⟨acknowledged, hrequest, hobeyed⟩ := hposted
  rw [acknowledged_fst, decide_eq_true_iff] at h
  unfold Settled
  rw [isParked_acknowledged, core_acknowledged, if_pos rfl]
  cases hanswer : (machine.core core).answer signal with
  | pending => exact absurd hanswer h
  | before =>
    have hbefore := Sim.Core.request_of_before hanswer
    rw [hrequest] at hbefore
    obtain ⟨-, rfl⟩ := Sim.Request.mk.inj (Option.some.inj hbefore)
    have hnow : (machine.core core).answer signal ≠ .now := by
      rw [hanswer]
      decide
    rw [if_neg (fun h => by simp at h), Sim.Core.request_asked_of_ne hnow]
    exact ⟨hrequest, hobeyed rfl⟩
  | now =>
    rw [if_pos ⟨rfl, rfl⟩, Sim.Core.asked_of_now hanswer]
    exact ⟨rfl, rfl⟩

theorem posted_of_signalAll {list : List UInt32} (hlist : list ⊆ cores.toList)
    {machine after : SimMachine} {log : List Notice}
    (h : signalAll signal list machine = ⟨.ok (), after, log⟩) :
    ∀ core ∈ list, Posted core signal after := by
  induction list generalizing machine log with
  | nil => simp
  | cons id rest ih =>
    obtain ⟨hid, hrest⟩ := List.cons_subset.1 hlist
    cases hsignal : Machine.signal id signal machine with
    | error error =>
      rw [signalAll_cons_of_error hsignal] at h
      cases h
    | ok next =>
      rw [signalAll_cons_of_ok hsignal] at h
      intro core hcore
      rcases List.mem_cons.1 hcore with rfl | hcore
      · have hkept := keeps_signalAll (stable_posted cores signal core) hrest
        exact hkept.of_eq (posted_of_signalCore hsignal) h
      · exact ih hrest h core hcore

theorem settled_of_pollAll {list : List UInt32} (hlist : list ⊆ cores.toList)
    {machine : SimMachine} (hposted : ∀ core ∈ list, Posted core signal machine) :
    ∀ core ∈ list, core ∉ (pollAll signal list machine).1 →
      Settled core signal (pollAll signal list machine).2 := by
  induction list generalizing machine with
  | nil => simp
  | cons id rest ih =>
    obtain ⟨hid, hrest⟩ := List.cons_subset.1 hlist
    have hasked : ∀ core ∈ rest,
        Posted core signal (Machine.acknowledged id signal machine).2 := fun core hcore =>
      (stable_posted cores signal core).asked hid (hposted core (List.mem_cons_of_mem _ hcore))
    intro core hcore hlate
    unfold pollAll at hlate ⊢
    dsimp only at hlate ⊢
    rcases List.mem_cons.1 hcore with rfl | hcore
    · cases hanswered : (Machine.acknowledged core signal machine).1 with
      | false =>
        rw [hanswered] at hlate
        exact absurd (List.mem_cons_self ..) hlate
      | true =>
        have hsettled := settled_of_acknowledged (hposted core (List.mem_cons_self ..)) hanswered
        exact keeps_pollAll (enduring_settled cores signal core) hrest hsettled
    · refine ih hrest hasked core hcore fun hmem => hlate ?_
      split
      · exact hmem
      · exact List.mem_cons_of_mem _ hmem

theorem settled_of_await {timeout start : UInt64} {rounds : Nat} {pending : List UInt32}
    (hpending : pending ⊆ cores.toList) {machine after : SimMachine} {log : List Notice}
    (hposted : ∀ core ∈ pending, Posted core signal machine)
    (h : await signal timeout start rounds pending machine = ⟨.ok [], after, log⟩) :
    ∀ core ∈ pending, Settled core signal after := by
  induction rounds generalizing pending machine with
  | zero =>
    cases h
    simp
  | succ rounds ih =>
    have hpolled := settled_of_pollAll hpending hposted
    have hlate := (pollAll_sublist signal pending machine).subset
    rw [await] at h
    dsimp only at h
    split at h
    · rename_i hempty
      cases h
      intro core hcore
      rw [List.isEmpty_iff] at hempty
      exact hpolled core hcore (by simp [hempty])
    · split at h
      · cases h
      · rename_i hempty _ now next hclock
        split at h
        · rw [Reply.mk.injEq, Outcome.ok.injEq] at h
          exact absurd (List.isEmpty_iff.2 h.1) hempty
        · have hnext : ∀ core ∈ (pollAll signal pending machine).1, Posted core signal next :=
            fun core hcore =>
              (stable_posted cores signal core).timed hclock
                (keeps_pollAll (stable_posted cores signal core).toEnduring hpending
                  (hposted core (hlate hcore)))
          intro core hcore
          -- a core that is not late has settled in this round, and later rounds leave it so
          by_cases hmem : core ∈ (pollAll signal pending machine).1
          · exact ih (List.Subset.trans hlate hpending) hnext h core hmem
          · have hkept := keeps_await (enduring_settled cores signal core) timeout start
              rounds (List.Subset.trans hlate hpending)
            exact hkept.of_eq ((enduring_settled cores signal core).timed hclock
              (hpolled core hcore hmem)) h

/-- A rendezvous that succeeds has brought every core of the range where the signal sends it. -/
theorem isParked_of_rendezvous {machine : SimMachine}
    (h : (barrier.rendezvous cores signal machine).outcome = .ok ()) {core : UInt32}
    (hcore : cores.contains core = true) :
    (barrier.rendezvous cores signal machine).state.isParked core = decide (signal = .freeze) := by
  have hcourse := rendezvous_cases barrier cores signal machine
  generalize barrier.rendezvous cores signal machine = reply at hcourse h ⊢
  cases hcourse with
  | answered _ signals clock waiting =>
    have hposted := posted_of_signalAll (List.Subset.refl cores.toList) signals
    have htimed : ∀ core ∈ cores.toList, Posted core signal _ := fun core hcore =>
      (stable_posted cores signal core).timed clock (hposted core hcore)
    have hmember := (CoreRange.mem_toList cores core).2 hcore
    exact (settled_of_await (List.Subset.refl cores.toList) htimed waiting core hmember).2
  | tooWide | refused | clockless | halted | timedOut => cases h

/-! ## Errors -/

theorem signalAll_ok (signal : Signal) {list : List UInt32}
    (h : ∀ core ∈ list, core.toNat < maxCores) (machine : SimMachine) :
    ∃ after, signalAll signal list machine = ⟨.ok (), after, []⟩ := by
  induction list generalizing machine with
  | nil => exact ⟨machine, rfl⟩
  | cons core rest ih =>
    obtain ⟨hcore, hrest⟩ := List.forall_mem_cons.1 h
    obtain ⟨next, hnext⟩ := signalCore_of_lt hcore signal machine
    rw [signalAll_cons_of_ok hnext]
    exact ih hrest next

/-- Every core of a range that the machine may have can be tracked and signalled. -/
theorem signalAll_toList (hcores : cores.stop.toNat ≤ maxCores) (signal : Signal)
    (machine : SimMachine) :
    cores.stop ≤ width ∧ ∃ after, signalAll signal cores.toList machine = ⟨.ok (), after, []⟩ := by
  have hwidth : width.toNat = 64 := rfl
  have hmax : maxCores = 32 := rfl
  refine ⟨?_, signalAll_ok signal (fun core hcore => ?_) machine⟩
  · rw [UInt32.le_iff_toNat_le]
    omega
  · rw [CoreRange.mem_toList, CoreRange.contains_iff] at hcore
    omega

theorem error_of_rendezvous (hcores : cores.stop.toNat ≤ maxCores) {machine : SimMachine}
    {error : Error} (h : (barrier.rendezvous cores signal machine).outcome = .error error) :
    ∃ core, cores.contains core = true ∧ error = .syncTimeout core := by
  have hcourse := rendezvous_cases barrier cores signal machine
  generalize barrier.rendezvous cores signal machine = reply at hcourse h
  obtain ⟨hnarrow, after, hafter⟩ := signalAll_toList hcores signal machine
  cases hcourse with
  | tooWide wide => exact absurd hnarrow (UInt32.not_le.2 wide)
  | refused _ signals =>
    rw [hafter] at signals
    cases signals
  | @timedOut _ _ _ _ core _ _ _ _ _ member =>
    cases h
    exact ⟨core, (CoreRange.mem_toList cores core).1 member, rfl⟩
  | clockless | halted | answered => cases h

/-! ## The clock -/

theorem clock_signalAll {list : List UInt32} {machine after : SimMachine} {log : List Notice}
    {outcome : Outcome Unit} (h : signalAll signal list machine = ⟨outcome, after, log⟩) :
    after.clock = machine.clock := by
  induction list generalizing machine with
  | nil =>
    cases h
    rfl
  | cons core rest ih =>
    cases hsignal : Machine.signal core signal machine with
    | ok next =>
      rw [signalAll_cons_of_ok hsignal] at h
      rw [ih h, clock_of_signalCore hsignal]
    | error error =>
      rw [signalAll_cons_of_error hsignal] at h
      cases h
      rfl

theorem clock_pollAll (signal : Signal) (list : List UInt32) (machine : SimMachine) :
    (pollAll signal list machine).2.clock = machine.clock := by
  induction list generalizing machine with
  | nil => rfl
  | cons core rest ih =>
    unfold pollAll
    dsimp only
    rw [ih]
    exact clock_acknowledged core signal machine

/-- Waiting that begins before the deadline ends at most one tick after it. Where it halts, the
deadline has not passed, and no further tick fits the word. -/
theorem clock_await {timeout start : UInt64} {rounds : Nat} {pending : List UInt32}
    {machine after : SimMachine} {log : List Notice} {outcome : Outcome (List UInt32)}
    (h : await signal timeout start rounds pending machine = ⟨outcome, after, log⟩)
    (hclock : machine.clock.toNat ≤ start.toNat + timeout.toNat) :
    after.clock.toNat ≤ start.toNat + timeout.toNat + 10 ∧
      ∀ fault, outcome = .fault fault →
        after.clock.toNat ≤ start.toNat + timeout.toNat ∧
          UInt64.size ≤ after.clock.toNat + 10 := by
  induction rounds generalizing pending machine with
  | zero =>
    cases h
    refine ⟨by omega, ?_⟩
    rintro fault ⟨⟩
  | succ rounds ih =>
    have hpoll := clock_pollAll signal pending machine
    rw [await] at h
    dsimp only at h
    split at h
    · cases h
      refine ⟨?_, ?_⟩
      · rw [hpoll]
        omega
      · rintro fault ⟨⟩
    · split at h
      · rename_i hnone
        cases h
        have hout := now_eq_none.1 hnone
        rw [hpoll] at hout ⊢
        exact ⟨by omega, fun _ _ => ⟨hclock, hout⟩⟩
      · rename_i now next hsome
        obtain ⟨htime, rfl⟩ := now_eq_some.1 hsome
        rw [hpoll] at htime
        split at h
        · cases h
          refine ⟨?_, ?_⟩
          · show now.toNat ≤ _
            omega
          · rintro fault ⟨⟩
        · rename_i hearly
          refine ih h ?_
          rw [UInt64.le_iff_toNat_le, Word.toNat_subClamped] at hearly
          show now.toNat ≤ _
          omega

theorem clock_rendezvous (barrier : Barrier) (cores : CoreRange) (signal : Signal)
    (machine : SimMachine) :
    (barrier.rendezvous cores signal machine).state.clock.toNat ≤
        machine.clock.toNat + barrier.timeout.toNat + 20 ∧
      ∀ fault, (barrier.rendezvous cores signal machine).outcome = .fault fault →
        (barrier.rendezvous cores signal machine).state.clock.toNat ≤
            machine.clock.toNat + barrier.timeout.toNat + 10 ∧
          UInt64.size ≤ (barrier.rendezvous cores signal machine).state.clock.toNat + 10 := by
  have hcourse := rendezvous_cases barrier cores signal machine
  generalize barrier.rendezvous cores signal machine = reply at hcourse ⊢
  cases hcourse with
  | tooWide =>
    refine ⟨?_, by simp⟩
    dsimp only
    omega
  | refused _ signals =>
    have hsignals := clock_signalAll signals
    refine ⟨?_, by simp⟩
    dsimp only
    rw [hsignals]
    omega
  | clockless _ signals clock =>
    have hsignals := clock_signalAll signals
    have hout := now_eq_none.1 clock
    dsimp only
    rw [hsignals] at hout ⊢
    exact ⟨by omega, fun _ _ => ⟨by omega, hout⟩⟩
  | halted _ signals clock waiting =>
    obtain ⟨htime, rfl⟩ := now_eq_some.1 clock
    rw [clock_signalAll signals] at htime
    obtain ⟨hafter, hfault⟩ := clock_await waiting (Nat.le_add_right _ _)
    obtain ⟨hearly, hout⟩ := hfault _ rfl
    exact ⟨by dsimp only; omega, fun _ _ => ⟨by dsimp only; omega, hout⟩⟩
  | answered _ signals clock waiting | timedOut _ signals clock waiting =>
    obtain ⟨htime, rfl⟩ := now_eq_some.1 clock
    rw [clock_signalAll signals] at htime
    obtain ⟨hafter, -⟩ := clock_await waiting (Nat.le_add_right _ _)
    refine ⟨?_, by simp⟩
    dsimp only
    omega

end Barrier
end CellVisor
