import CellVisor.Proofs.Barrier.Answers
import CellVisor.Proofs.Image.Copy

/-!
# CellVisor.Proofs.Sim.Prompt

The simulated machine with nothing out of order: every core answers when it is asked first, and no
copy fails.

* `rendezvous_of_prompt`: a rendezvous with cores that heed the signal succeeds within one tick.
* `counted_of_copy`: the copy of an image ends in its count, or halts for want of a number.
* `stable_prompt`, `keeps_prompt_copy`: neither changes that.
-/

namespace CellVisor

namespace Sim.Core

/-- The core answers a signal that is for it when it is asked first. -/
structure Prompt (core : Core) : Prop where
  responsive : core.responsive = true
  undelayed : core.delay = 0

section Prompt

variable {core : Core} {signal : Signal}

theorem Prompt.post (h : core.Prompt) (signal : Signal) : (core.post signal).Prompt :=
  ⟨h.responsive, h.undelayed⟩

theorem Prompt.asked (h : core.Prompt) (signal : Signal) : (core.asked signal).Prompt := by
  unfold Core.asked
  split
  · exact ⟨h.responsive, h.undelayed⟩
  · split <;> exact ⟨h.responsive, h.undelayed⟩

theorem post_post (core : Core) (signal : Signal) :
    (core.post signal).post signal = core.post signal := rfl

theorem answer_post (h : core.Prompt) (heeds : core.heeds signal = true) :
    (core.post signal).answer signal = .now := by
  have hpost : (core.post signal).heeds signal = true := by
    rw [← heeds]
    cases signal <;> rfl
  have hready : ¬ (0 < (core.post signal).holdoff ∨ (!(core.post signal).responsive) = true) := by
    simp [Core.post, h.responsive, h.undelayed]
  rw [answer, if_neg hready, request_post]
  simp [hpost]

/-- A core that has answered answers again. -/
theorem answer_asked_ne (h : core.answer signal ≠ .pending) :
    (core.asked signal).answer signal ≠ .pending := by
  have hready : ¬ (0 < core.holdoff ∨ (!core.responsive) = true) := fun hready => by
    rw [answer, if_pos hready] at h
    exact h rfl
  cases hanswer : core.answer signal with
  | pending => exact absurd hanswer h
  | before =>
    have hsame : core.asked signal = core := by
      rw [asked, if_neg fun hold => hready (.inl hold), hanswer]
    rw [hsame, hanswer]
    simp
  | now =>
    rw [asked_of_now hanswer, answer, if_neg hready]
    simp

end Prompt
end Sim.Core

namespace SimMachine

/-- Every core is prompt, and no copy is set to fail. -/
structure Prompt (machine : SimMachine) : Prop where
  cores : ∀ core, (machine.core core).Prompt
  copies : machine.copiesLeft = none

/-! ## What changes nothing -/

section Kept

variable {machine : SimMachine}

theorem Prompt.setCore (h : machine.Prompt) (id : UInt32) {core : Sim.Core} (hcore : core.Prompt) :
    (machine.setCore id core).Prompt where
  cores := by
    intro other
    rw [core_setCore]
    split
    · exact hcore
    · exact h.cores other
  copies := h.copies

theorem Prompt.record (h : machine.Prompt) (event : SimEvent) : (machine.record event).Prompt :=
  ⟨h.cores, h.copies⟩

theorem Prompt.setContext (h : machine.Prompt) (core : UInt32) (context : Context) :
    (machine.setContext core context).Prompt :=
  h.setCore core ⟨(h.cores core).responsive, (h.cores core).undelayed⟩

theorem stable_prompt (cores : CoreRange) (signal : Signal) :
    Barrier.Stable Prompt cores signal where
  signalled := by
    intro id machine next _ hsignal h
    obtain ⟨-, rfl⟩ := signalCore_eq_ok.1 hsignal
    exact (h.setCore id ((h.cores id).post signal)).record _
  asked := by
    intro id machine _ h
    show (acknowledged id signal machine).2.Prompt
    have hnext := h.setCore id ((h.cores id).asked signal)
    rw [acknowledged_snd]
    dsimp only
    split
    · exact hnext.record _
    · exact hnext
  timed := by
    intro machine time next hclock h
    obtain ⟨-, rfl⟩ := now_eq_some.1 hclock
    exact ⟨h.cores, h.copies⟩

theorem Prompt.copy (h : machine.Prompt) (target source size : UInt64) :
    (machine.copy target source size).2.Prompt := by
  have hnone : machine.copiesLeft.map (· - 1) = none := by rw [h.copies, Option.map_none]
  unfold SimMachine.copy
  split
  · exact h
  · dsimp only
    split
    · exact ⟨h.cores, hnone⟩
    · exact ⟨h.cores, hnone⟩

theorem keeps_prompt_copy (target source size block : UInt64) :
    Action.Keeps Prompt (Image.copy target source size block) :=
  Image.keeps_copy fun _ h => h.copy _ _ _

end Kept

/-! ## Rendezvous -/

section Rendezvous

variable {cores : CoreRange} {signal : Signal} {machine : SimMachine}

theorem core_of_signalAll {list : List UInt32} {after : SimMachine} {log : List Notice}
    (h : Barrier.signalAll signal list machine = ⟨.ok (), after, log⟩) (core : UInt32) :
    after.core core =
      if core ∈ list then (machine.core core).post signal else machine.core core := by
  induction list generalizing machine with
  | nil =>
    cases h
    rw [if_neg List.not_mem_nil]
  | cons id rest ih =>
    cases hsignal : Machine.signal id signal machine with
    | error error =>
      rw [Barrier.signalAll_cons_of_error hsignal] at h
      cases h
    | ok next =>
      rw [Barrier.signalAll_cons_of_ok hsignal] at h
      rw [ih h, core_of_signalCore hsignal]
      by_cases hid : core = id
      · subst hid
        rw [if_pos rfl, Sim.Core.post_post, ite_self, if_pos (List.mem_cons_self ..)]
      · rw [if_neg hid]
        simp [List.mem_cons, hid]

/-- Cores that are all ready to answer do so in one round. -/
theorem pollAll_of_ready {list : List UInt32}
    (h : ∀ core ∈ list, (machine.core core).answer signal ≠ .pending) :
    (Barrier.pollAll signal list machine).1 = [] := by
  induction list generalizing machine with
  | nil => rfl
  | cons id rest ih =>
    obtain ⟨hid, hrest⟩ := List.forall_mem_cons.1 h
    have hanswered : (Machine.acknowledged id signal machine).1 = true :=
      (acknowledged_fst id signal machine).trans (decide_eq_true hid)
    have hnext : ∀ core ∈ rest,
        ((Machine.acknowledged id signal machine).2.core core).answer signal ≠ .pending := by
      intro core hcore
      show ((acknowledged id signal machine).2.core core).answer signal ≠ _
      rw [core_acknowledged]
      split
      · exact Sim.Core.answer_asked_ne hid
      · exact hrest core hcore
    unfold Barrier.pollAll
    dsimp only
    rw [hanswered, if_pos rfl]
    exact ih hnext

theorem await_of_ready {timeout start : UInt64} (rounds : Nat) {list : List UInt32}
    (h : ∀ core ∈ list, (machine.core core).answer signal ≠ .pending) :
    Barrier.await signal timeout start (rounds + 1) list machine =
      ⟨.ok [], (Barrier.pollAll signal list machine).2, []⟩ := by
  rw [Barrier.await]
  dsimp only
  rw [pollAll_of_ready h]
  rfl

/-- On a prompt machine a rendezvous with cores that heed the signal takes one tick. -/
theorem rendezvous_of_prompt (barrier : Barrier) (hcores : cores.stop.toNat ≤ maxCores)
    (prompt : machine.Prompt)
    (heeds : ∀ core, cores.contains core = true → (machine.core core).heeds signal = true)
    (hclock : machine.clock.toNat + 10 < UInt64.size) :
    (barrier.rendezvous cores signal machine).outcome = .ok () ∧
      (barrier.rendezvous cores signal machine).state.clock.toNat = machine.clock.toNat + 10 := by
  have hmember : ∀ core ∈ cores.toList, cores.contains core = true := fun core hcore =>
    (CoreRange.mem_toList cores core).1 hcore
  have hready : ∀ {signalled timed : SimMachine} {start : UInt64},
      Barrier.signalAll signal cores.toList machine = ⟨.ok (), signalled, []⟩ →
      Machine.now signalled = some (start, timed) →
      ∀ core ∈ cores.toList, (timed.core core).answer signal ≠ .pending := by
    intro signalled timed start signals clock core hcore
    obtain ⟨-, rfl⟩ := now_eq_some.1 clock
    show (signalled.core core).answer signal ≠ _
    rw [core_of_signalAll signals, if_pos hcore,
      Sim.Core.answer_post (prompt.cores core) (heeds core (hmember core hcore))]
    simp
  obtain ⟨hnarrow, after, hafter⟩ := Barrier.signalAll_toList hcores signal machine
  have hcourse := Barrier.rendezvous_cases barrier cores signal machine
  generalize barrier.rendezvous cores signal machine = reply at hcourse ⊢
  cases hcourse with
  | tooWide wide => exact absurd hnarrow (UInt32.not_le.2 wide)
  | refused _ signals =>
    rw [hafter] at signals
    cases signals
  | clockless _ signals clock =>
    have hout := now_eq_none.1 clock
    rw [Barrier.clock_signalAll signals] at hout
    omega
  | halted _ signals clock waiting | timedOut _ signals clock waiting =>
    rw [await_of_ready _ (hready signals clock)] at waiting
    cases waiting
  | answered _ signals clock waiting =>
    rw [await_of_ready _ (hready signals clock)] at waiting
    cases waiting
    obtain ⟨htime, rfl⟩ := now_eq_some.1 clock
    rw [Barrier.clock_signalAll signals] at htime
    refine ⟨rfl, ?_⟩
    rw [Barrier.clock_pollAll]
    exact htime.symm

end Rendezvous

/-! ## Copies -/

section Copies

variable {machine : SimMachine} {target source size : UInt64}

/-- How a copy of `count` blocks ends where no block fails: in the number of the blocks, or, where
there is no word for it, in a halt. -/
inductive Counted {α : Type} (count : Nat) : Outcome α → Prop where
  | numbered {value : α} (few : count < UInt32.size) : Counted count (.ok value)
  | overrun (many : UInt32.size ≤ count) : Counted count (.fault .overflow)

theorem Counted.ok_of_lt {α : Type} {count : Nat} {outcome : Outcome α} (h : Counted count outcome)
    (few : count < UInt32.size) : ∃ value, outcome = .ok value := by
  cases h with
  | numbered => exact ⟨_, rfl⟩
  | overrun many => omega

theorem not_failed_of_prompt {block : UInt64} (prompt : machine.Prompt)
    (htarget : target.toNat + size.toNat < UInt64.size)
    (hsource : source.toNat + size.toNat < UInt64.size) {error : Error} {after : SimMachine}
    {log : List Notice} :
    Image.copy target source size block machine ≠ ⟨.error error, after, log⟩ := by
  intro h
  obtain ⟨blockTarget, blockSource, chunk, before, hblock, hbefore, hfailed⟩ :=
    Image.failed_of_copy (P := Prompt) (fun _ h => h.copy _ _ _) prompt h
  obtain ⟨offset, htargetBlock, hsourceBlock, hinside⟩ := hblock
  have hok : (before.copy blockTarget blockSource chunk).1 = .ok () :=
    fst_copy_of_unlimited hbefore.copies (by omega) (by omega)
  rw [show before.copy blockTarget blockSource chunk = _ from hfailed] at hok
  cases hok

/-- On a prompt machine the copy of an image inside the address space ends by its count alone. -/
theorem counted_of_copy {block : UInt64} (prompt : machine.Prompt)
    (htarget : target.toNat + size.toNat < UInt64.size)
    (hsource : source.toNat + size.toNat < UInt64.size) {outcome : Outcome UInt32}
    {after : SimMachine} {log : List Notice}
    (h : Image.copy target source size block machine = ⟨outcome, after, log⟩) :
    Counted (Image.blockCount size block) outcome := by
  cases outcome with
  | ok count =>
    have hcount := Image.toNat_of_copy h
    have hword := count.toNat_lt_size
    exact .numbered (by omega)
  | error error => exact absurd h (not_failed_of_prompt prompt htarget hsource)
  | fault fault =>
    cases Image.fault_of_copy h
    refine .overrun (Nat.not_lt.1 fun few => ?_)
    rcases Image.copy_cases htarget hsource few machine with ⟨_, _, hends⟩ | ⟨_, _, hends, -⟩
    · rw [h] at hends
      cases hends
    · rw [h] at hends
      cases hends

end Copies
end SimMachine
end CellVisor
