import CellVisor.Proofs.Barrier.Trace

/-!
# CellVisor.Proofs.Barrier.Rounds

The rendezvous on the simulated machine, round by round. After each round it is known which cores
have answered: those that are responsive, that the signal is for, and whose delay is over.

* `Sim.Core.questioned`: a core after the signal and a number of questions, in one expression.
* `pollAll_eq`, `core_pollAll`, `events_pollAll`: what a round does.
* `Questioned`: the machine after a number of rounds. `Questioned.polled`: another round leads to
  the next number.
* `waited_of_questioned`: when a wait ends, and with which cores; `wait_eq_of_rounds_le`: that it
  ends by itself.
* `Resolved`: the outcome of a rendezvous, and the events, the cores and the clock after it.
  `rendezvous_exact`: every rendezvous is resolved.
-/

namespace CellVisor

namespace Sim.Core

/-- The core acknowledges `signal` within `count` questions after it. -/
def answersWithin (core : Core) (signal : Signal) (count : Nat) : Bool :=
  core.responsive && core.heeds signal && decide (core.delay < count)

/-- The core acknowledges `signal` when it is asked once more after `count` questions. -/
def answersAt (core : Core) (signal : Signal) (count : Nat) : Bool :=
  !core.answersWithin signal count && core.answersWithin signal (count + 1)

/-- The core after `signal` was posted to it and it was asked `count` times. -/
def questioned (core : Core) (signal : Signal) (count : Nat) : Core :=
  if core.answersWithin signal count then
    { core with
      parked := signal = .freeze
      request := some { signal, acknowledged := true }
      holdoff := 0 }
  else { core with request := some { signal }, holdoff := core.delay - count }

variable {core : Core} {signal : Signal} {count : Nat}

theorem answersWithin_iff :
    core.answersWithin signal count = true ↔
      core.responsive = true ∧ core.heeds signal = true ∧ core.delay < count := by
  simp [answersWithin, and_assoc]

theorem answersWithin_mono {more : Nat} (h : core.answersWithin signal count = true)
    (hle : count ≤ more) : core.answersWithin signal more = true := by
  obtain ⟨hresponsive, hheeds, hdelay⟩ := answersWithin_iff.1 h
  exact answersWithin_iff.2 ⟨hresponsive, hheeds, Nat.lt_of_lt_of_le hdelay hle⟩

theorem delay_of_answersAt (h : core.answersAt signal count = true) : core.delay = count := by
  rw [answersAt, Bool.and_eq_true, Bool.not_eq_true', ← Bool.not_eq_true] at h
  obtain ⟨hbefore, hnow⟩ := h
  obtain ⟨hresponsive, hheeds, hdelay⟩ := answersWithin_iff.1 hnow
  have hover : ¬ core.delay < count := fun hlt =>
    hbefore (answersWithin_iff.2 ⟨hresponsive, hheeds, hlt⟩)
  omega

theorem answersAt_delay (h : core.answersWithin signal count = true) :
    core.answersAt signal core.delay = true := by
  obtain ⟨hresponsive, hheeds, -⟩ := answersWithin_iff.1 h
  simp [answersAt, answersWithin, hresponsive, hheeds]

theorem questioned_zero (core : Core) (signal : Signal) :
    core.questioned signal 0 = core.post signal := by
  simp [questioned, answersWithin, post]

theorem questioned_of_answered {more : Nat} (h : core.answersWithin signal count = true)
    (hle : count ≤ more) : core.questioned signal more = core.questioned signal count := by
  simp [questioned, h, answersWithin_mono h hle]

theorem parked_questioned :
    (core.questioned signal count).parked =
      if core.answersWithin signal count then !core.parked else core.parked := by
  unfold questioned
  split
  · rename_i h
    have hheeds := (answersWithin_iff.1 h).2.1
    cases signal <;> simp_all [heeds]
  · rfl

/-- A core that has answered says so again; it answers when its delay is over. -/
theorem answer_questioned (core : Core) (signal : Signal) (count : Nat) :
    (core.questioned signal count).answer signal =
      if core.answersWithin signal count then .before
      else if core.answersWithin signal (count + 1) then .now else .pending := by
  unfold questioned
  split
  · rename_i h
    have hresponsive := (answersWithin_iff.1 h).1
    simp [answer, hresponsive]
  · rename_i h
    rw [answersWithin_iff] at h
    unfold answer
    dsimp only
    by_cases hwaits : 0 < core.delay - count ∨ (!core.responsive) = true
    · rw [if_pos hwaits, if_neg]
      rw [answersWithin_iff]
      rintro ⟨hresponsive, -, hdelay⟩
      simp only [hresponsive, Bool.not_true, Bool.false_eq_true, or_false] at hwaits
      omega
    · -- whether a core heeds a signal depends on whether it is parked, not on what is posted to it
      have hsame : heeds { core with request := some { signal }, holdoff := core.delay - count }
          signal = core.heeds signal := by
        cases signal <;> rfl
      rw [if_neg hwaits, hsame]
      obtain ⟨hdelay, hresponsive⟩ := not_or.1 hwaits
      have hready : core.answersWithin signal (count + 1) = core.heeds signal := by
        have hover : core.delay < count + 1 := by omega
        have hresponds : core.responsive = true := by simpa using hresponsive
        simp [answersWithin, hover, hresponds]
      cases hheeds : core.heeds signal <;> simp [hready, hheeds]

theorem asked_questioned (core : Core) (signal : Signal) (count : Nat) :
    (core.questioned signal count).asked signal = core.questioned signal (count + 1) := by
  have hanswer := answer_questioned core signal count
  by_cases hbefore : core.answersWithin signal count = true
  · have hready : ¬ 0 < (core.questioned signal count).holdoff := by simp [questioned, hbefore]
    rw [if_pos hbefore] at hanswer
    rw [asked, if_neg hready, hanswer, questioned_of_answered hbefore (Nat.le_succ count)]
  · rw [if_neg hbefore] at hanswer
    by_cases hnow : core.answersWithin signal (count + 1) = true
    · rw [if_pos hnow] at hanswer
      have hdelay := (answersWithin_iff.1 hnow).2.2
      rw [asked_of_now hanswer]
      simp [questioned, hbefore, hnow]
      omega
    · rw [if_neg hnow] at hanswer
      by_cases hwaits : 0 < (core.questioned signal count).holdoff
      · rw [asked, if_pos hwaits]
        simp [questioned, hbefore, hnow]
        omega
      · rw [asked, if_neg hwaits, hanswer]
        simp [questioned, hbefore] at hwaits
        simp [questioned, hbefore, hnow]
        omega

end Sim.Core

namespace Barrier

open SimMachine

variable {cores : CoreRange} {signal : Signal} {barrier : Barrier}

/-! ## One round -/

section Round

variable {machine : SimMachine} {list : List UInt32}

theorem core_pollAll (once : list.Nodup) (id : UInt32) :
    (pollAll signal list machine).2.core id =
      if id ∈ list then (machine.core id).asked signal else machine.core id := by
  induction list generalizing machine with
  | nil => simp [pollAll]
  | cons first rest ih =>
    obtain ⟨hnew, hrest⟩ := List.nodup_cons.1 once
    have hasked := core_acknowledged first signal machine
    unfold pollAll
    dsimp only
    rw [ih hrest]
    by_cases hid : id = first
    · subst hid
      rw [if_neg hnew, if_pos (List.mem_cons_self ..)]
      exact (hasked id).trans (if_pos rfl)
    · have hsame : (Machine.acknowledged first signal machine).2.core id = machine.core id :=
        (hasked id).trans (if_neg hid)
      rw [hsame]
      simp [hid]

/-- The cores that remain after a round are those that are not ready to answer. -/
theorem pollAll_eq (once : list.Nodup) :
    (pollAll signal list machine).1 =
      list.filter fun id => (machine.core id).answer signal = .pending := by
  induction list generalizing machine with
  | nil => rfl
  | cons first rest ih =>
    obtain ⟨hnew, hrest⟩ := List.nodup_cons.1 once
    have hsame := @core_acknowledged_of_mem signal machine _ _ hnew
    have hanswered : (Machine.acknowledged first signal machine).1 =
        decide ((machine.core first).answer signal ≠ .pending) :=
      acknowledged_fst first signal machine
    unfold pollAll
    dsimp only
    rw [ih hrest, hanswered, List.filter_cons, List.filter_congr fun id hid => by rw [hsame id hid]]
    by_cases hpending : (machine.core first).answer signal = .pending <;> simp [hpending]

/-- The cores that acknowledge in a round are those that are ready to do so for the first time. -/
theorem events_pollAll (once : list.Nodup) :
    (pollAll signal list machine).2.events =
      machine.events ++
        answers signal (list.filter fun id => (machine.core id).answer signal = .now) := by
  induction list generalizing machine with
  | nil => simp [pollAll, answers]
  | cons first rest ih =>
    obtain ⟨hnew, hrest⟩ := List.nodup_cons.1 once
    have hsame := @core_acknowledged_of_mem signal machine _ _ hnew
    have hevents : (Machine.acknowledged first signal machine).2.events = machine.events ++
        if (machine.core first).answer signal = .now then [.ack first signal] else [] :=
      events_acknowledged first signal machine
    unfold pollAll
    dsimp only
    rw [ih hrest, hevents, List.filter_cons, List.filter_congr fun id hid => by rw [hsame id hid]]
    by_cases hnow : (machine.core first).answer signal = .now
    · simp [hnow, answers]
    · simp [hnow]

end Round

/-! ## Round after round -/

section Questioned

variable {start machine : SimMachine} {count : Nat}

/-- The cores of a range that have not answered within `count` rounds, in ascending order. -/
def late (cores : CoreRange) (signal : Signal) (start : SimMachine) (count : Nat) : List UInt32 :=
  cores.toList.filter fun id => !(start.core id).answersWithin signal count

/-- The cores that have, in the order in which they do: round by round, and in ascending order
within a round. -/
def prompt (cores : CoreRange) (signal : Signal) (start : SimMachine) (count : Nat) :
    List UInt32 :=
  (List.range count).flatMap fun turn =>
    cores.toList.filter fun id => (start.core id).answersAt signal turn

/-- Since `start` the cores were sent `signal`, and then asked for it in `count` rounds. -/
structure Questioned (cores : CoreRange) (signal : Signal) (start : SimMachine) (count : Nat)
    (machine : SimMachine) : Prop where
  core : ∀ id, machine.core id =
    if id ∈ cores.toList then (start.core id).questioned signal count else start.core id
  events : machine.events =
    start.events ++ (signals cores signal ++ answers signal (prompt cores signal start count))

theorem nodup_late : (late cores signal start count).Nodup := cores.nodup_toList.filter _

theorem mem_late {id : UInt32} :
    id ∈ late cores signal start count ↔
      id ∈ cores.toList ∧ (start.core id).answersWithin signal count = false := by
  simp [late]

theorem prompt_succ (cores : CoreRange) (signal : Signal) (start : SimMachine) (count : Nat) :
    prompt cores signal start (count + 1) = prompt cores signal start count ++
      cores.toList.filter fun id => (start.core id).answersAt signal count := by
  rw [prompt, List.range_succ, List.flatMap_append, List.flatMap_singleton, prompt]

theorem mem_prompt {id : UInt32} :
    id ∈ prompt cores signal start count ↔
      id ∈ cores.toList ∧ (start.core id).answersWithin signal count = true := by
  simp only [prompt, List.mem_flatMap, List.mem_range, List.mem_filter]
  constructor
  · rintro ⟨turn, hturn, hid, hat⟩
    rw [Sim.Core.answersAt, Bool.and_eq_true] at hat
    exact ⟨hid, Sim.Core.answersWithin_mono hat.2 hturn⟩
  · rintro ⟨hid, hwithin⟩
    exact ⟨_, (Sim.Core.answersWithin_iff.1 hwithin).2.2, hid, Sim.Core.answersAt_delay hwithin⟩

/-- Of two cores that answer, the first is the one whose delay is over earlier, or the lower one. -/
def Sooner (start : SimMachine) (first second : UInt32) : Prop :=
  (start.core first).delay < (start.core second).delay ∨
    (start.core first).delay = (start.core second).delay ∧ first < second

theorem pairwise_prompt : (prompt cores signal start count).Pairwise (Sooner start) := by
  induction count with
  | zero => simp [prompt]
  | succ count ih =>
    rw [prompt_succ, List.pairwise_append]
    refine ⟨ih, ?_, ?_⟩
    · refine List.pairwise_filter.2 (cores.pairwise_toList.imp fun hlt hfirst hsecond => .inr ?_)
      exact ⟨(Sim.Core.delay_of_answersAt hfirst).trans (Sim.Core.delay_of_answersAt hsecond).symm,
        hlt⟩
    · intro first hfirst second hsecond
      have hbefore := (Sim.Core.answersWithin_iff.1 (mem_prompt.1 hfirst).2).2.2
      have hnow := Sim.Core.delay_of_answersAt (List.mem_filter.1 hsecond).2
      exact .inl (by omega)

theorem questioned_of_signalAll {log : List Notice}
    (h : signalAll signal cores.toList start = ⟨.ok (), machine, log⟩) :
    Questioned cores signal start 0 machine where
  core := by
    intro id
    rw [core_of_signalAll h, Sim.Core.questioned_zero]
  events := by simp [events_of_signalAll h, signals, answers, prompt]

/-- Another round asks the cores that are late once more, and leaves those that still are. -/
theorem Questioned.polled (h : Questioned cores signal start count machine) :
    (pollAll signal (late cores signal start count) machine).1 =
        late cores signal start (count + 1) ∧
      Questioned cores signal start (count + 1)
        (pollAll signal (late cores signal start count) machine).2 := by
  have hanswer : ∀ id ∈ cores.toList, (machine.core id).answer signal =
      if (start.core id).answersWithin signal count then .before
      else if (start.core id).answersWithin signal (count + 1) then .now else .pending := by
    intro id hid
    rw [h.core, if_pos hid, Sim.Core.answer_questioned]
  refine ⟨?_, ?_, ?_⟩
  · rw [pollAll_eq nodup_late, late, List.filter_filter, late]
    refine List.filter_congr fun id hid => ?_
    rw [hanswer id hid]
    have hmono := @Sim.Core.answersWithin_mono (start.core id) signal count (count + 1)
    cases hbefore : (start.core id).answersWithin signal count
    · cases hnow : (start.core id).answersWithin signal (count + 1) <;> simp
    · simp [hmono hbefore (Nat.le_succ count)]
  · intro id
    rw [core_pollAll nodup_late, h.core]
    by_cases hid : id ∈ cores.toList
    · simp only [mem_late, hid, if_true, true_and, Sim.Core.asked_questioned]
      split
      · rfl
      · rename_i hanswered
        rw [Bool.not_eq_false] at hanswered
        exact (Sim.Core.questioned_of_answered hanswered (Nat.le_succ count)).symm
    · simp [mem_late, hid]
  · have hturn : (late cores signal start count).filter
        (fun id => (machine.core id).answer signal = .now) =
        cores.toList.filter fun id => (start.core id).answersAt signal count := by
      rw [late, List.filter_filter]
      refine List.filter_congr fun id hid => ?_
      rw [hanswer id hid, Sim.Core.answersAt]
      cases hbefore : (start.core id).answersWithin signal count
      · cases hnow : (start.core id).answersWithin signal (count + 1) <;> simp
      · simp
    rw [events_pollAll nodup_late, hturn, h.events, prompt_succ]
    simp [answers]

end Questioned

/-! ## The wait -/

/-- How many rounds there is time for: one at least, and one for every tick of the timeout. -/
def rounds (barrier : Barrier) : Nat := max 1 ((barrier.timeout.toNat + 9) / 10)

theorem rounds_le_iff {count : Nat} :
    barrier.rounds ≤ count + 1 ↔ barrier.timeout.toNat ≤ 10 * (count + 1) := by
  unfold rounds
  omega

theorem rounds_pos (barrier : Barrier) : 0 < barrier.rounds := by
  unfold rounds
  omega

theorem rounds_le_timeout (barrier : Barrier) : barrier.rounds ≤ barrier.timeout.toNat + 1 := by
  unfold rounds
  omega

/-- How a wait from `time` on ends, `count` rounds after `start`. -/
inductive Waited (barrier : Barrier) (cores : CoreRange) (signal : Signal) (start : SimMachine)
    (time : UInt64) (count : Nat) : Reply SimMachine (List UInt32) → Prop where
  | answered {done : Nat} {after : SimMachine} (inTime : done ≤ barrier.rounds)
      (complete : late cores signal start done = [])
      (first : ∀ earlier, count < earlier → earlier < done → late cores signal start earlier ≠ [])
      (more : count < done) (questioned : Questioned cores signal start done after)
      (clock : after.clock.toNat + 10 = time.toNat + 10 * done) :
      Waited barrier cores signal start time count ⟨.ok [], after, []⟩
  | timedOut {core : UInt32} {rest : List UInt32} {after : SimMachine}
      (missing : late cores signal start barrier.rounds = core :: rest)
      (questioned : Questioned cores signal start barrier.rounds after)
      (clock : after.clock.toNat = time.toNat + 10 * barrier.rounds) :
      Waited barrier cores signal start time count ⟨.ok (core :: rest), after, []⟩

section Wait

variable {start machine : SimMachine} {time : UInt64} {count limit : Nat}

/-- A wait goes on round after round, and never as long as it is allowed to. -/
theorem waited_of_questioned (h : Questioned cores signal start count machine)
    (hclock : machine.clock.toNat = time.toNat + 10 * count)
    (hfar : time.toNat + 10 * barrier.rounds < UInt64.size) (hcount : count < barrier.rounds)
    (hlimit : barrier.rounds ≤ count + limit) :
    Waited barrier cores signal start time count
      (await signal barrier.timeout time limit (late cores signal start count) machine) := by
  -- the limit is there for the recursion alone: the deadline comes before it runs out
  induction limit generalizing count machine with
  | zero => omega
  | succ limit ih =>
    obtain ⟨hlate, hpolled⟩ := h.polled
    have hpoll := congrArg UInt64.toNat
      (clock_pollAll signal (late cores signal start count) machine)
    rw [await]
    dsimp only
    generalize pollAll signal (late cores signal start count) machine = polled
      at hlate hpolled hpoll ⊢
    rw [hlate]
    split
    · rename_i hempty
      refine .answered hcount (List.isEmpty_iff.1 hempty) (by omega) (Nat.lt_succ_self count)
        hpolled ?_
      omega
    · rename_i hsome
      rw [List.isEmpty_iff] at hsome
      split
      · rename_i hnone
        have hout := now_eq_none.1 hnone
        omega
      · rename_i now next hnow
        obtain ⟨htime, rfl⟩ := now_eq_some.1 hnow
        have hdeadline : barrier.timeout ≤ Word.subClamped now time ↔
            barrier.rounds ≤ count + 1 := by
          rw [rounds_le_iff, UInt64.le_iff_toNat_le, Word.toNat_subClamped]
          omega
        have hnext : Questioned cores signal start (count + 1) { polled.2 with clock := now } :=
          ⟨hpolled.core, hpolled.events⟩
        have hnow : now.toNat = time.toNat + 10 * (count + 1) := by omega
        split
        · rename_i hover
          have hlast : count + 1 = barrier.rounds := by
            rw [hdeadline] at hover
            omega
          rw [hlast] at hsome hnext hnow ⊢
          obtain ⟨core, rest, hsome⟩ := List.exists_cons_of_ne_nil hsome
          rw [hsome]
          exact .timedOut hsome hnext hnow
        · rename_i hearly
          rw [hdeadline] at hearly
          have hrest := ih hnext hnow (by omega) (by omega)
          generalize await signal barrier.timeout time limit (late cores signal start (count + 1))
            { polled.2 with clock := now } = reply at hrest ⊢
          cases hrest with
          | timedOut missing questioned clock => exact .timedOut missing questioned clock
          | answered inTime complete first more questioned clock =>
            refine .answered inTime complete (fun earlier hafter hbefore => ?_) (by omega)
              questioned clock
            rcases Nat.eq_or_lt_of_le hafter with rfl | hlater
            · exact hsome
            · exact first earlier hlater hbefore

theorem clock_poll (signal : Signal) (turns : Nat) (waiting pending : UInt64)
    (machine : SimMachine) :
    (poll signal turns waiting pending machine).2.clock = machine.clock := by
  induction turns generalizing waiting pending machine with
  | zero => rfl
  | succ turns ih =>
    unfold poll
    dsimp only
    split
    · rfl
    · rw [ih]
      exact clock_acknowledged ..

/-- How many rounds a wait is allowed is of no matter, once there are as many as there is time
for. -/
theorem wait_eq_of_rounds_le {limit' : Nat} {pending : UInt64}
    (hclock : machine.clock.toNat = time.toNat + 10 * count) (hcount : count < barrier.rounds)
    (hlimit : barrier.rounds ≤ count + limit) (hlimit' : barrier.rounds ≤ count + limit') :
    wait signal barrier.timeout time limit pending machine =
      wait signal barrier.timeout time limit' pending machine := by
  induction limit generalizing count limit' pending machine with
  | zero => omega
  | succ limit ih =>
    obtain _ | limit' := limit'
    · omega
    have hpoll := congrArg UInt64.toNat (clock_poll signal width.toNat pending pending machine)
    rw [wait, wait]
    dsimp only
    generalize poll signal width.toNat pending pending machine = polled at hpoll ⊢
    split
    · rfl
    · split
      · rfl
      · rename_i now next hnow
        obtain ⟨htime, rfl⟩ := now_eq_some.1 hnow
        split
        · rfl
        · rename_i hearly
          rw [UInt64.le_iff_toNat_le, Word.toNat_subClamped] at hearly
          have hnow : now.toNat = time.toNat + 10 * (count + 1) := by omega
          have hmore : count + 1 < barrier.rounds := by
            refine Nat.not_le.1 fun hle => hearly ?_
            have := rounds_le_iff.1 hle
            omega
          exact ih hnow hmore (by omega) (by omega)

end Wait

/-! ## The whole -/

section Rendezvous

variable {machine : SimMachine}

/-- The longest delay among the cores of a range; none for an empty one. -/
def slowest (cores : CoreRange) (machine : SimMachine) : Nat :=
  (cores.toList.map fun id => (machine.core id).delay).foldr max 0

theorem foldr_max_lt_iff {list : List Nat} {bound : Nat} (hbound : 0 < bound) :
    list.foldr max 0 < bound ↔ ∀ n ∈ list, n < bound := by
  induction list with
  | nil => simpa using hbound
  | cons first rest ih => rw [List.foldr_cons, Nat.max_lt, ih, List.forall_mem_cons]

theorem late_eq_nil_iff {count : Nat} :
    late cores signal machine count = [] ↔
      ∀ id ∈ cores.toList, (machine.core id).answersWithin signal count = true := by
  simp [late]

/-- When all have answered for the first time, the last of them is the slowest. -/
theorem slowest_of_first {done : Nat} (hpos : 0 < done)
    (complete : late cores signal machine done = [])
    (first : ∀ earlier, 0 < earlier → earlier < done → late cores signal machine earlier ≠ []) :
    done = 1 + slowest cores machine := by
  have hall := late_eq_nil_iff.1 complete
  have hlt : ∀ {count}, 0 < count → (slowest cores machine < count ↔
      late cores signal machine count = []) := by
    intro count hcount
    rw [slowest, foldr_max_lt_iff hcount, late_eq_nil_iff, List.forall_mem_map]
    refine forall₂_congr fun id hid => ?_
    obtain ⟨hresponsive, hheeds, -⟩ := Sim.Core.answersWithin_iff.1 (hall id hid)
    simp [Sim.Core.answersWithin_iff, hresponsive, hheeds]
  have hdone := (hlt hpos).2 complete
  by_cases hlast : slowest cores machine + 1 < done
  · exact absurd ((hlt (Nat.succ_pos _)).1 (Nat.lt_succ_self _)) (first _ (Nat.succ_pos _) hlast)
  · omega

theorem late_zero : late cores signal machine 0 = cores.toList := by
  simp [late, Sim.Core.answersWithin]

theorem questioned_timed {signalled timed : SimMachine} {time : UInt64} {count : Nat}
    (h : Questioned cores signal machine count signalled)
    (clock : Machine.now signalled = some (time, timed)) :
    Questioned cores signal machine count timed := by
  obtain ⟨-, rfl⟩ := now_eq_some.1 clock
  exact ⟨h.core, h.events⟩

/-- The core answers `signal` in time if it is called on `machine`. -/
def InTime (barrier : Barrier) (signal : Signal) (machine : SimMachine) (core : UInt32) : Prop :=
  (machine.core core).answersWithin signal barrier.rounds = true

instance (barrier : Barrier) (signal : Signal) (machine : SimMachine) (core : UInt32) :
    Decidable (barrier.InTime signal machine core) :=
  inferInstanceAs (Decidable (_ = true))

/-- `core` is the lowest one of the range that does not. -/
structure FirstLate (barrier : Barrier) (cores : CoreRange) (signal : Signal)
    (machine : SimMachine) (core : UInt32) : Prop where
  member : cores.contains core = true
  late : ¬ barrier.InTime signal machine core
  lower : ∀ other, cores.contains other = true → other < core →
    barrier.InTime signal machine other

/-- What a rendezvous on `machine` leaves, whether or not all cores are in time. -/
structure Concluded (barrier : Barrier) (cores : CoreRange) (signal : Signal)
    (machine after : SimMachine) : Prop where
  events : ∃ acks,
    after.events = machine.events ++ (signals cores signal ++ answers signal acks) ∧
      acks.Pairwise (Sooner machine) ∧
      ∀ core, core ∈ acks ↔ cores.contains core = true ∧ barrier.InTime signal machine core
  parked : ∀ core, after.isParked core =
    if cores.contains core = true ∧ barrier.InTime signal machine core then
      !machine.isParked core
    else machine.isParked core
  others : ∀ core, cores.contains core = false → after.core core = machine.core core

/-- A rendezvous on `machine` has the reply `reply`: it signals every core of the range in ascending
order, and then those that are in time acknowledge, the sooner first. -/
structure Resolved (barrier : Barrier) (cores : CoreRange) (signal : Signal) (machine : SimMachine)
    (reply : Reply SimMachine Unit) : Prop
    extends Concluded barrier cores signal machine reply.state where
  ok_iff : reply.outcome = .ok () ↔
    ∀ core, cores.contains core = true → barrier.InTime signal machine core
  error_iff : ∀ error, reply.outcome = .error error ↔
    ∃ core, error = .syncTimeout core ∧ barrier.FirstLate cores signal machine core
  returned : reply.Returned
  clock_ok : reply.outcome = .ok () →
    reply.state.clock.toNat = machine.clock.toNat + 10 * (1 + slowest cores machine)
  clock_late : reply.outcome ≠ .ok () →
    reply.state.clock.toNat = machine.clock.toNat + 10 * (1 + barrier.rounds)

/-- Enough rounds are as good as all that there is time for. -/
theorem concluded_of_questioned {done : Nat} {after : SimMachine}
    (h : Questioned cores signal machine done after)
    (enough : ∀ core, cores.contains core = true →
      ((machine.core core).answersWithin signal done = true ↔
        barrier.InTime signal machine core)) :
    Concluded barrier cores signal machine after where
  events := by
    refine ⟨_, h.events, pairwise_prompt, fun core => ?_⟩
    rw [mem_prompt, CoreRange.mem_toList]
    exact and_congr_right (enough core)
  parked := by
    intro core
    unfold isParked
    rw [h.core]
    by_cases hcore : cores.contains core = true
    · rw [if_pos ((CoreRange.mem_toList ..).2 hcore), Sim.Core.parked_questioned]
      simp [hcore, enough core hcore]
    · rw [if_neg (mt (CoreRange.mem_toList ..).1 hcore)]
      simp [hcore]
  others := by
    intro core hcore
    rw [h.core, if_neg]
    simp [CoreRange.mem_toList, hcore]

theorem firstLate_of_late {core : UInt32} {rest : List UInt32}
    (h : late cores signal machine barrier.rounds = core :: rest) :
    barrier.FirstLate cores signal machine core := by
  have hmember : core ∈ late cores signal machine barrier.rounds := by
    rw [h]
    exact List.mem_cons_self ..
  obtain ⟨hcore, hlate⟩ := mem_late.1 hmember
  refine ⟨(CoreRange.mem_toList ..).1 hcore, by simp [InTime, hlate], fun other hother hlt => ?_⟩
  refine Decidable.byContradiction fun hout => ?_
  have hothers : other ∈ core :: rest := by
    rw [← h]
    refine mem_late.2 ⟨(CoreRange.mem_toList ..).2 hother, ?_⟩
    simpa [InTime] using hout
  have hascending : (core :: rest).Pairwise (· < ·) := by
    rw [← h]
    exact cores.pairwise_toList.filter _
  rcases List.mem_cons.1 hothers with rfl | hrest
  · exact UInt32.lt_irrefl _ hlt
  · exact UInt32.lt_asymm hlt (List.rel_of_pairwise_cons hascending hrest)

theorem FirstLate.unique {first second : UInt32} (h : barrier.FirstLate cores signal machine first)
    (h' : barrier.FirstLate cores signal machine second) : first = second := by
  refine UInt32.le_antisymm (UInt32.not_lt.1 fun hlt => ?_) (UInt32.not_lt.1 fun hlt => ?_)
  · exact h'.late (h.lower second h'.member hlt)
  · exact h.late (h'.lower first h.member hlt)

theorem resolved_of_answered {done : Nat} {after : SimMachine} {log : List Notice} (hpos : 0 < done)
    (inTime : done ≤ barrier.rounds) (complete : late cores signal machine done = [])
    (first : ∀ earlier, 0 < earlier → earlier < done → late cores signal machine earlier ≠ [])
    (questioned : Questioned cores signal machine done after)
    (clock : after.clock.toNat = machine.clock.toNat + 10 * done) :
    Resolved barrier cores signal machine ⟨.ok (), after, log⟩ := by
  have hall : ∀ core, cores.contains core = true →
      (machine.core core).answersWithin signal done = true :=
    fun core hcore => late_eq_nil_iff.1 complete core ((CoreRange.mem_toList ..).2 hcore)
  have hin : ∀ core, cores.contains core = true → barrier.InTime signal machine core :=
    fun core hcore => Sim.Core.answersWithin_mono (hall core hcore) inTime
  have hslowest := slowest_of_first hpos complete first
  exact
    { concluded_of_questioned questioned fun core hcore =>
        iff_of_true (hall core hcore) (hin core hcore) with
      ok_iff := iff_of_true rfl hin
      error_iff := fun error => ⟨nofun, fun ⟨core, _, h⟩ => absurd (hin core h.member) h.late⟩
      returned := by simp [Reply.Returned]
      clock_ok := fun _ => by rw [← hslowest]; exact clock
      clock_late := fun h => absurd rfl h }

theorem resolved_of_timedOut {core : UInt32} {rest : List UInt32} {after : SimMachine}
    {log : List Notice} (missing : late cores signal machine barrier.rounds = core :: rest)
    (questioned : Questioned cores signal machine barrier.rounds after)
    (clock : after.clock.toNat = machine.clock.toNat + 10 * (1 + barrier.rounds)) :
    Resolved barrier cores signal machine ⟨.error (.syncTimeout core), after, log⟩ := by
  have hfirst := firstLate_of_late missing
  exact
    { concluded_of_questioned questioned fun _ _ => Iff.rfl with
      ok_iff := ⟨nofun, fun h => absurd (h core hfirst.member) hfirst.late⟩
      error_iff := fun error => by
        constructor
        · rintro ⟨⟩
          exact ⟨core, rfl, hfirst⟩
        · rintro ⟨other, rfl, hother⟩
          rw [hfirst.unique hother]
      returned := by simp [Reply.Returned]
      clock_ok := nofun
      clock_late := fun _ => clock }

/-- A rendezvous comes to an end, however many more rounds it is allowed; whether it succeeds, what
it records and when it ends follows from which cores are in time. -/
theorem rendezvous_exact (barrier : Barrier) (cores : CoreRange) (signal : Signal)
    (machine : SimMachine) (hcores : cores.stop.toNat ≤ maxCores)
    (hclock : machine.clock.toNat + 10 * (1 + barrier.rounds) < UInt64.size) :
    Resolved barrier cores signal machine (barrier.rendezvous cores signal machine) ∧
      ∀ (waiting : SimMachine) (pending : UInt64) (limit : Nat),
        waiting.clock.toNat + 10 * barrier.rounds < UInt64.size → barrier.timeout.toNat < limit →
          wait signal barrier.timeout waiting.clock limit pending waiting =
            wait signal barrier.timeout waiting.clock (barrier.timeout.toNat + 1) pending
              waiting := by
  constructor
  · have hcourse := rendezvous_cases barrier cores signal machine
    generalize barrier.rendezvous cores signal machine = reply at hcourse ⊢
    obtain ⟨hnarrow, posted, hposted⟩ := signalAll_toList hcores signal machine
    have hpost : posted.clock.toNat = machine.clock.toNat :=
      congrArg UInt64.toNat (clock_signalAll hposted)
    -- The wait starts at the first reading of the clock, with every core of the range pending.
    have hwait : ∀ {signalled timed : SimMachine} {start : UInt64},
        signalAll signal cores.toList machine = ⟨.ok (), signalled, []⟩ →
        Machine.now signalled = some (start, timed) →
        start.toNat = machine.clock.toNat + 10 ∧
          Waited barrier cores signal machine start 0
            (await signal barrier.timeout start (barrier.timeout.toNat + 1) cores.toList
              timed) := by
      intro signalled timed start signals clock
      have htimed := questioned_timed (questioned_of_signalAll signals) clock
      rw [hposted] at signals
      cases signals
      obtain ⟨hstart, rfl⟩ := now_eq_some.1 clock
      have hfar : start.toNat + 10 * barrier.rounds < UInt64.size := by omega
      have hlimit : barrier.rounds ≤ 0 + (barrier.timeout.toNat + 1) := by
        have := barrier.rounds_le_timeout
        omega
      have hwaited := waited_of_questioned htimed rfl hfar barrier.rounds_pos hlimit
      rw [late_zero] at hwaited
      exact ⟨by omega, hwaited⟩
    cases hcourse with
    | tooWide wide => exact absurd hnarrow (UInt32.not_le.2 wide)
    | refused _ signals =>
      rw [hposted] at signals
      cases signals
    | clockless _ signals clock =>
      rw [hposted] at signals
      cases signals
      have hout := now_eq_none.1 clock
      omega
    | halted _ signals clock waiting =>
      obtain ⟨-, hwaited⟩ := hwait signals clock
      rw [waiting] at hwaited
      cases hwaited
    | answered _ signals clock waiting =>
      obtain ⟨hstart, hwaited⟩ := hwait signals clock
      rw [waiting] at hwaited
      cases hwaited with
      | answered inTime complete first more questioned clock =>
        exact resolved_of_answered more inTime complete first questioned (by omega)
    | timedOut _ signals clock waiting =>
      obtain ⟨hstart, hwaited⟩ := hwait signals clock
      rw [waiting] at hwaited
      cases hwaited with
      | timedOut missing questioned clock =>
        exact resolved_of_timedOut missing questioned (by omega)
  · intro waiting pending limit hfar hlimit
    have hrounds := barrier.rounds_le_timeout
    exact wait_eq_of_rounds_le rfl barrier.rounds_pos (by omega) (by omega)

/-- Two rounds are not enough for a core that leaves two questions unanswered, three are. -/
theorem rendezvous_exact_delayed :
    Resolved ⟨20⟩ ⟨0, 4⟩ .freeze ((ofCores 4).delayAcks 1 2)
        (rendezvous ⟨20⟩ ⟨0, 4⟩ .freeze ((ofCores 4).delayAcks 1 2)) ∧
      (rendezvous ⟨20⟩ ⟨0, 4⟩ .freeze ((ofCores 4).delayAcks 1 2)).outcome =
        .error (.syncTimeout 1) ∧
      Resolved ⟨21⟩ ⟨0, 4⟩ .freeze ((ofCores 4).delayAcks 1 2)
        (rendezvous ⟨21⟩ ⟨0, 4⟩ .freeze ((ofCores 4).delayAcks 1 2)) ∧
      (rendezvous ⟨21⟩ ⟨0, 4⟩ .freeze ((ofCores 4).delayAcks 1 2)).outcome = .ok () := by
  have hshort := rendezvous_exact ⟨20⟩ ⟨0, 4⟩ .freeze ((ofCores 4).delayAcks 1 2) (by decide)
    (by decide)
  have hlong := rendezvous_exact ⟨21⟩ ⟨0, 4⟩ .freeze ((ofCores 4).delayAcks 1 2) (by decide)
    (by decide)
  exact ⟨hshort.1, by decide +kernel, hlong.1, by decide +kernel⟩

end Rendezvous

end Barrier
end CellVisor
