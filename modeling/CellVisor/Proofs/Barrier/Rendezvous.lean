import CellVisor.Proofs.Action
import CellVisor.Proofs.Barrier.Pending

/-!
# CellVisor.Proofs.Barrier.Rendezvous

The rendezvous on any machine: how it can go, and what it keeps.

* `rendezvous_cases`: the six ways in which a rendezvous goes.
* `keeps_rendezvous`: what a signal to a core of the range, a question to it and a reading of the
  clock keep, a rendezvous keeps, wherever it ends.
-/

namespace CellVisor
namespace Barrier

variable {M : Type} [Machine M] {signal : Signal}

/-! ## Its parts -/

theorem signalAll_cons_of_ok {core : UInt32} {rest : List UInt32} {machine next : M}
    (h : Machine.signal core signal machine = .ok next) :
    signalAll signal (core :: rest) machine = signalAll signal rest next := by
  have hstep : Action.ofStep (Machine.signal core signal) machine = ⟨.ok (), next, []⟩ := by
    rw [Action.ofStep, h]
  rw [signalAll, Action.bind_of_ok hstep, Reply.after_nil]

theorem signalAll_cons_of_error {core : UInt32} {rest : List UInt32} {machine : M} {error : Error}
    (h : Machine.signal core signal machine = .error error) :
    signalAll signal (core :: rest) machine = ⟨.error error, machine, []⟩ := by
  have hstep : Action.ofStep (Machine.signal core signal) machine =
      ⟨.error error, machine, []⟩ := by
    rw [Action.ofStep, h]
  rw [signalAll, Action.bind_of_error hstep]

theorem signalAll_cases (signal : Signal) (cores : List UInt32) (machine : M) :
    (∃ after, signalAll signal cores machine = ⟨.ok (), after, []⟩) ∨
      ∃ error after, signalAll signal cores machine = ⟨.error error, after, []⟩ := by
  induction cores generalizing machine with
  | nil => exact .inl ⟨machine, rfl⟩
  | cons core rest ih =>
    cases hsignal : Machine.signal core signal machine with
    | ok next =>
      rw [signalAll_cons_of_ok hsignal]
      exact ih next
    | error error =>
      rw [signalAll_cons_of_error hsignal]
      exact .inr ⟨error, machine, rfl⟩

/-- Waiting gives no notice, and ends with some of the cores or with the clock run out. -/
theorem await_cases (signal : Signal) (timeout start : UInt64) (rounds : Nat)
    (pending : List UInt32) (machine : M) :
    (∃ late after, await signal timeout start rounds pending machine = ⟨.ok late, after, []⟩ ∧
      late.Sublist pending) ∨
      ∃ after, await signal timeout start rounds pending machine =
        ⟨.fault .overflow, after, []⟩ := by
  induction rounds generalizing pending machine with
  | zero => exact .inl ⟨pending, machine, rfl, .refl pending⟩
  | succ rounds ih =>
    have hlate := pollAll_sublist signal pending machine
    rw [await]
    dsimp only
    split
    · exact .inl ⟨[], _, rfl, List.nil_sublist _⟩
    · split
      · exact .inr ⟨_, rfl⟩
      · rename_i now next _
        split
        · exact .inl ⟨_, _, rfl, hlate⟩
        · rcases ih (pollAll signal pending machine).1 next with ⟨late, after, h, hsub⟩ | h
          · exact .inl ⟨late, after, h, hsub.trans hlate⟩
          · exact .inr h

/-! ## The whole -/

/-- How a rendezvous on `machine` goes. The cores that it waits for are listed here. -/
inductive Course (barrier : Barrier) (cores : CoreRange) (signal : Signal) (machine : M) :
    Reply M Unit → Prop where
  | tooWide (wide : width < cores.stop) :
      Course barrier cores signal machine
        ⟨.error (.config .rangeExceedsBarrier), machine, []⟩
  | refused {error : Error} {after : M} (narrow : cores.stop ≤ width)
      (signals : signalAll signal cores.toList machine = ⟨.error error, after, []⟩) :
      Course barrier cores signal machine ⟨.error error, after, []⟩
  | clockless {signalled : M} (narrow : cores.stop ≤ width)
      (signals : signalAll signal cores.toList machine = ⟨.ok (), signalled, []⟩)
      (clock : Machine.now signalled = none) :
      Course barrier cores signal machine ⟨.fault .overflow, signalled, []⟩
  | halted {signalled timed after : M} {start : UInt64} (narrow : cores.stop ≤ width)
      (signals : signalAll signal cores.toList machine = ⟨.ok (), signalled, []⟩)
      (clock : Machine.now signalled = some (start, timed))
      (waiting : await signal barrier.timeout start (barrier.timeout.toNat + 1) cores.toList timed =
        ⟨.fault .overflow, after, []⟩) :
      Course barrier cores signal machine ⟨.fault .overflow, after, []⟩
  | answered {signalled timed after : M} {start : UInt64} (narrow : cores.stop ≤ width)
      (signals : signalAll signal cores.toList machine = ⟨.ok (), signalled, []⟩)
      (clock : Machine.now signalled = some (start, timed))
      (waiting : await signal barrier.timeout start (barrier.timeout.toNat + 1) cores.toList timed =
        ⟨.ok [], after, []⟩) :
      Course barrier cores signal machine ⟨.ok (), after, [.acknowledged signal cores]⟩
  | timedOut {signalled timed after : M} {start : UInt64} {core : UInt32} {late : List UInt32}
      (narrow : cores.stop ≤ width)
      (signals : signalAll signal cores.toList machine = ⟨.ok (), signalled, []⟩)
      (clock : Machine.now signalled = some (start, timed))
      (waiting : await signal barrier.timeout start (barrier.timeout.toNat + 1) cores.toList timed =
        ⟨.ok (core :: late), after, []⟩)
      (member : core ∈ cores.toList) :
      Course barrier cores signal machine
        ⟨.error (.syncTimeout core), after,
          [.barrierTimedOut signal barrier.timeout (mask (core :: late))]⟩

theorem rendezvous_cases (barrier : Barrier) (cores : CoreRange) (signal : Signal) (machine : M) :
    Course barrier cores signal machine (barrier.rendezvous cores signal machine) := by
  unfold rendezvous
  split
  · rename_i wide
    exact .tooWide wide
  rename_i narrow
  rw [UInt32.not_lt] at narrow
  have listed := listed_toList narrow
  dsimp only
  rcases signalAll_cases signal cores.toList machine with ⟨signalled, signals⟩ |
      ⟨error, after, signals⟩
  · rw [Action.bind_of_ok signals]
    cases clock : Machine.now signalled with
    | none =>
      have hreading : Action.ofReading Machine.now signalled =
          ⟨.fault .overflow, signalled, []⟩ := by
        rw [Action.ofReading, clock]
      rw [Action.bind_of_fault hreading]
      exact .clockless narrow signals clock
    | some reading =>
      obtain ⟨start, timed⟩ := reading
      have hreading : Action.ofReading Machine.now signalled = ⟨.ok start, timed, []⟩ := by
        rw [Action.ofReading, clock]
      rw [Action.bind_of_ok hreading]
      have hmask := wait_mask signal barrier.timeout start (barrier.timeout.toNat + 1) listed timed
      rcases await_cases signal barrier.timeout start (barrier.timeout.toNat + 1)
          cores.toList timed with ⟨late, after, waiting, hlate⟩ | ⟨after, waiting⟩
      · rw [waiting, Reply.andThen_ok] at hmask
        rw [Action.bind_of_ok hmask]
        have hlisted := listed.sublist hlate
        cases late with
        | nil => exact .answered narrow signals clock waiting
        | cons core late =>
          rw [if_neg (mt (mask_eq_zero_iff hlisted.narrow).1 (List.cons_ne_nil _ _)),
            trailingZeros_mask hlisted]
          exact .timedOut narrow signals clock waiting (hlate.subset (List.mem_cons_self ..))
      · rw [waiting, Reply.andThen_fault] at hmask
        rw [Action.bind_of_fault hmask]
        exact .halted narrow signals clock waiting
  · rw [Action.bind_of_error signals]
    exact .refused narrow signals

/-! ## What is kept -/

/-- `P` outlasts the wait for the cores of a range: questions to them and readings of the clock. -/
structure Enduring (P : M → Prop) (cores : CoreRange) (signal : Signal) : Prop where
  asked : ∀ {core machine}, core ∈ cores.toList → P machine →
    P (Machine.acknowledged core signal machine).2
  timed : ∀ {machine time next}, Machine.now machine = some (time, next) → P machine → P next

/-- `P` outlasts a rendezvous with the cores of a range: signals to them as well. -/
structure Stable (P : M → Prop) (cores : CoreRange) (signal : Signal) : Prop
    extends Enduring P cores signal where
  signalled : ∀ {core machine next}, core ∈ cores.toList →
    Machine.signal core signal machine = .ok next → P machine → P next

section Stable

variable {P : M → Prop} {cores : CoreRange}

theorem Stable.and {Q : M → Prop} (hp : Stable P cores signal) (hq : Stable Q cores signal) :
    Stable (fun machine => P machine ∧ Q machine) cores signal where
  asked hcore h := ⟨hp.asked hcore h.1, hq.asked hcore h.2⟩
  timed hclock h := ⟨hp.timed hclock h.1, hq.timed hclock h.2⟩
  signalled hcore hsignal h := ⟨hp.signalled hcore hsignal h.1, hq.signalled hcore hsignal h.2⟩

theorem keeps_signalAll (stable : Stable P cores signal) {list : List UInt32}
    (hlist : list ⊆ cores.toList) : Action.Keeps P (signalAll signal list) := by
  induction list with
  | nil => exact Action.keeps_pure ()
  | cons core rest ih =>
    obtain ⟨hcore, hrest⟩ := List.cons_subset.1 hlist
    have first : Action.Keeps P (Action.ofStep (Machine.signal core signal)) :=
      Action.keeps_ofStep fun _ _ => stable.signalled hcore
    exact first.bind fun _ => ih hrest

theorem keeps_pollAll (enduring : Enduring P cores signal) {list : List UInt32}
    (hlist : list ⊆ cores.toList) {machine : M} (h : P machine) :
    P (pollAll signal list machine).2 := by
  induction list generalizing machine with
  | nil => exact h
  | cons core rest ih =>
    obtain ⟨hcore, hrest⟩ := List.cons_subset.1 hlist
    exact ih hrest (enduring.asked hcore h)

theorem keeps_await (enduring : Enduring P cores signal) (timeout start : UInt64) (rounds : Nat)
    {pending : List UInt32} (hpending : pending ⊆ cores.toList) :
    Action.Keeps P (await signal timeout start rounds pending) := by
  induction rounds generalizing pending with
  | zero => exact fun _ h => h
  | succ rounds ih =>
    intro machine h
    have hpolled := keeps_pollAll enduring hpending h
    have hlate := List.Subset.trans (pollAll_sublist signal pending machine).subset hpending
    rw [await]
    dsimp only
    split
    · exact hpolled
    · split
      · exact hpolled
      · rename_i now next hclock
        have htimed := enduring.timed hclock hpolled
        split
        · exact htimed
        · exact ih hlate next htimed

theorem keeps_rendezvous (stable : Stable P cores signal) (barrier : Barrier) :
    Action.Keeps P (barrier.rendezvous cores signal) := by
  intro machine h
  have hsignals := keeps_signalAll stable (List.Subset.refl cores.toList)
  have hcourse := rendezvous_cases barrier cores signal machine
  generalize barrier.rendezvous cores signal machine = reply at hcourse ⊢
  cases hcourse with
  | tooWide => exact h
  | refused _ signals | clockless _ signals => exact hsignals.of_eq h signals
  | halted _ signals clock waiting | answered _ signals clock waiting
  | timedOut _ signals clock waiting =>
    have htimed := stable.timed clock (hsignals.of_eq h signals)
    exact (keeps_await stable.toEnduring _ _ _ (List.Subset.refl cores.toList)).of_eq htimed waiting

end Stable
end Barrier
end CellVisor
