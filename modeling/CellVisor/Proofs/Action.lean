import CellVisor.Action

/-!
# CellVisor.Proofs.Action

What an action keeps whatever its outcome, and runs of many actions of which each may fail.

* `Keeps.bind`, `Keeps.attempt`: what every part keeps, the whole keeps.
* `ok_of_bind`: a sequence that gives a value got one from each of its parts.
* `Says.bind`: what every notice of a sequence has, from its parts.
* `keeps_attemptEach_of_mem`: what every action of a run keeps, the run keeps.
* `kept_of_attemptEach`: the same of what is sure between the actions only.
* `attemptEach_cons`: a run takes its actions one after the other, past every error, and stops at
  a fault (`ends_attemptEach`).
* `Reachable.kept`: what every action that returns keeps, all states have that can be reached.
* `reachable_of_attemptEach`: a run without a fault reaches the state that it leaves.
-/

namespace CellVisor

variable {σ τ α β ι : Type} {P : σ → Prop}

/-- The computation has come to a value or an error. -/
def Reply.Returned (reply : Reply σ α) : Prop := ∀ fault, reply.outcome ≠ .fault fault

theorem Reply.fault_or_returned (reply : Reply σ α) :
    (∃ fault, reply.outcome = .fault fault) ∨ reply.Returned :=
  (Classical.em _).imp_right not_exists.1

@[simp] theorem Reply.after_mk (outcome : Outcome α) (state : σ) (log earlier : List Notice) :
    (⟨outcome, state, log⟩ : Reply σ α).after earlier = ⟨outcome, state, earlier ++ log⟩ := rfl

theorem Reply.after_after (reply : Reply σ α) (earlier first : List Notice) :
    (reply.after earlier).after first = reply.after (first ++ earlier) :=
  congrArg (Reply.mk _ _) (List.append_assoc ..).symm

namespace Action

/-! ## Sequences by their outcomes -/

section Bind

variable {action : Action σ α} {next : α → Action σ β} {state after : σ} {log : List Notice}

theorem bind_of_ok {value : α} (h : action state = ⟨.ok value, after, log⟩) :
    (action >>= next) state = (next value after).after log := by
  rw [bind_apply, h, Reply.andThen_ok]

theorem bind_of_error {error : Error} (h : action state = ⟨.error error, after, log⟩) :
    (action >>= next) state = ⟨.error error, after, log⟩ := by
  rw [bind_apply, h, Reply.andThen_error]

theorem bind_of_fault {fault : Fault} (h : action state = ⟨.fault fault, after, log⟩) :
    (action >>= next) state = ⟨.fault fault, after, log⟩ := by
  rw [bind_apply, h, Reply.andThen_fault]

theorem fail_bind (error : Error) (state : σ) :
    ((fail error : Action σ α) >>= next) state = ⟨.error error, state, []⟩ := rfl

theorem note_bind (notice : Notice) (next : Unit → Action σ β) (state : σ) :
    (note notice >>= next) state = (next () state).after [notice] := rfl

theorem ok_of_bind {result : β} (h : ((action >>= next) state).outcome = .ok result) :
    ∃ value after log, action state = ⟨.ok value, after, log⟩ ∧
      (next value after).outcome = .ok result ∧
      ((action >>= next) state).state = (next value after).state := by
  cases hreply : action state with
  | mk outcome after log =>
    cases outcome with
    | ok value =>
      rw [bind_of_ok hreply] at h ⊢
      exact ⟨value, after, log, rfl, h, rfl⟩
    | error error =>
      rw [bind_of_error hreply] at h
      cases h
    | fault fault =>
      rw [bind_of_fault hreply] at h
      cases h

theorem attempt_of_ok {value : α} (h : action state = ⟨.ok value, after, log⟩) :
    action.attempt state = ⟨.ok (.ok value), after, log⟩ := by
  simp only [attempt, h]

theorem attempt_of_error {error : Error} (h : action state = ⟨.error error, after, log⟩) :
    action.attempt state = ⟨.ok (.error error), after, log⟩ := by
  simp only [attempt, h]

theorem attempt_of_fault {fault : Fault} (h : action state = ⟨.fault fault, after, log⟩) :
    action.attempt state = ⟨.fault fault, after, log⟩ := by
  simp only [attempt, h]

end Bind

def discard (action : Action σ α) : Action σ Unit := do
  let _ ← action

@[simp] theorem state_discard (action : Action σ α) (state : σ) :
    (action.discard state).state = (action state).state := by
  unfold discard
  cases h : action state with
  | mk outcome after log =>
    cases outcome with
    | ok value =>
      rw [bind_of_ok h]
      rfl
    | error error => rw [bind_of_error h]
    | fault fault => rw [bind_of_fault h]

theorem returned_of_discard {action : Action σ α} {state : σ}
    (returned : (action.discard state).Returned) : (action state).Returned := by
  intro fault h
  refine returned fault ?_
  unfold discard
  cases hreply : action state with
  | mk outcome after log =>
    rw [hreply] at h
    cases h
    rw [bind_of_fault hreply]

theorem returned_discard {action : Action σ α} {state : σ} (returned : (action state).Returned) :
    (action.discard state).Returned := by
  unfold discard
  cases hreply : action state with
  | mk outcome after log =>
    cases outcome with
    | ok value =>
      rw [bind_of_ok hreply]
      exact nofun
    | error error =>
      rw [bind_of_error hreply]
      exact nofun
    | fault fault =>
      rw [hreply] at returned
      exact absurd rfl (returned fault)

@[simp] theorem log_discard (action : Action σ α) (state : σ) :
    (action.discard state).log = (action state).log := by
  unfold discard
  cases h : action state with
  | mk outcome after log =>
    cases outcome with
    | ok value =>
      rw [bind_of_ok h]
      exact List.append_nil log
    | error error => rw [bind_of_error h]
    | fault fault => rw [bind_of_fault h]

/-! ## What is kept -/

/-- `action` leads from states with `P` to states with `P`, also where it fails. -/
def Keeps (P : σ → Prop) (action : Action σ α) : Prop := ∀ state, P state → P (action state).state

theorem Keeps.of_eq {action : Action σ α} (h : Keeps P action) {state after : σ}
    {outcome : Outcome α} {log : List Notice} (hstate : P state)
    (hreply : action state = ⟨outcome, after, log⟩) : P after := by
  have hafter := h state hstate
  rw [hreply] at hafter
  exact hafter

theorem keeps_pure (value : α) : Keeps P (pure value : Action σ α) := fun _ h => h

theorem keeps_note (notice : Notice) : Keeps P (note notice) := fun _ h => h

theorem keeps_fail (error : Error) : Keeps P (fail error : Action σ α) := fun _ h => h

theorem keeps_ofStep {step : σ → Except Error σ}
    (h : ∀ state next, step state = .ok next → P state → P next) : Keeps P (ofStep step) := by
  intro state hstate
  unfold ofStep
  split
  · rename_i next hnext
    exact h state next hnext hstate
  · exact hstate

theorem Keeps.bind {action : Action σ α} {next : α → Action σ β} (first : Keeps P action)
    (rest : ∀ value, Keeps P (next value)) : Keeps P (action >>= next) := by
  intro state hstate
  have hfirst := first state hstate
  cases hreply : action state with
  | mk outcome after log =>
    rw [hreply] at hfirst
    cases outcome with
    | ok value =>
      rw [bind_of_ok hreply]
      exact rest value after hfirst
    | error error =>
      rw [bind_of_error hreply]
      exact hfirst
    | fault fault =>
      rw [bind_of_fault hreply]
      exact hfirst

@[simp] theorem state_attempt (action : Action σ α) (state : σ) :
    (action.attempt state).state = (action state).state := by
  cases hreply : action state with
  | mk outcome after log => cases outcome <;> simp only [attempt, hreply]

theorem Keeps.attempt {action : Action σ α} (h : Keeps P action) : Keeps P action.attempt := by
  intro state hstate
  rw [state_attempt]
  exact h state hstate

theorem Keeps.and {Q : σ → Prop} {action : Action σ α} (hp : Keeps P action)
    (hq : Keeps Q action) : Keeps (fun state => P state ∧ Q state) action :=
  fun state h => ⟨hp state h.1, hq state h.2⟩

/-! ## What is said -/

/-- Every notice of `action` has `Q`. -/
def Says (Q : Notice → Prop) (action : Action σ α) : Prop :=
  ∀ state, ∀ notice ∈ (action state).log, Q notice

section Says

variable {Q : Notice → Prop}

theorem says_pure (value : α) : Says Q (pure value : Action σ α) := by
  intro state notice h
  cases h

theorem says_get : Says Q (get : Action σ σ) := by
  intro state notice h
  cases h

theorem says_fail (error : Error) : Says Q (fail error : Action σ α) := by
  intro state notice h
  cases h

theorem says_fail_bind (error : Error) (next : α → Action σ β) :
    Says Q ((fail error : Action σ α) >>= next) := by
  intro state notice h
  cases h

theorem says_update (change : σ → σ) : Says Q (update change) := by
  intro state notice h
  cases h

theorem says_note {notice : Notice} (h : Q notice) : Says Q (note notice : Action σ Unit) := by
  intro state other hother
  rw [note_apply, List.mem_singleton] at hother
  rw [hother]
  exact h

theorem says_word (value : Option α) : Says Q (word value : Action σ α) := by
  intro state notice h
  cases value <;> cases h

theorem Says.bind {action : Action σ α} {next : α → Action σ β} (first : Says Q action)
    (rest : ∀ value, Says Q (next value)) : Says Q (action >>= next) := by
  intro state notice hnotice
  have hfirst := first state
  cases hreply : action state with
  | mk outcome after log =>
    rw [hreply] at hfirst
    cases outcome with
    | ok value =>
      rw [bind_of_ok hreply, Reply.log_after] at hnotice
      rcases List.mem_append.1 hnotice with hnotice | hnotice
      · exact hfirst notice hnotice
      · exact rest value after notice hnotice
    | error error =>
      rw [bind_of_error hreply] at hnotice
      exact hfirst notice hnotice
    | fault fault =>
      rw [bind_of_fault hreply] at hnotice
      exact hfirst notice hnotice

theorem Says.zoom {part : σ → τ} {replace : τ → σ → σ} {action : Action τ α}
    (h : Says Q action) : Says Q (action.zoom part replace) :=
  fun state => h (part state)

theorem Says.of_eq {action : Action σ α} (h : Says Q action) {state after : σ}
    {outcome : Outcome α} {log : List Notice} (hreply : action state = ⟨outcome, after, log⟩) :
    ∀ notice ∈ log, Q notice := by
  have hlog := h state
  rw [hreply] at hlog
  exact hlog

end Says

/-! ## Runs -/

/-- Takes the actions of a list in their order. An error of one does not keep the next from being
taken, a fault does. -/
def attemptEach (act : ι → Action σ α) : List ι → Action σ Unit
  | [] => pure ()
  | i :: rest => do
    let _ ← (act i).attempt
    attemptEach act rest

section Cons

variable (act : ι → Action σ α) {i : ι} {state : σ}

theorem attemptEach_of_fault {fault : Fault} (h : (act i state).outcome = .fault fault)
    (rest : List ι) :
    attemptEach act (i :: rest) state =
      ⟨.fault fault, (act i state).state, (act i state).log⟩ := by
  cases hreply : act i state with
  | mk outcome after log =>
    rw [hreply] at h
    subst h
    exact bind_of_fault (attempt_of_fault hreply)

theorem attemptEach_of_returned (returned : (act i state).Returned) (rest : List ι) :
    attemptEach act (i :: rest) state =
      (attemptEach act rest (act i state).state).after (act i state).log := by
  cases hreply : act i state with
  | mk outcome after log =>
    cases outcome with
    | ok value => exact bind_of_ok (attempt_of_ok hreply)
    | error error => exact bind_of_ok (attempt_of_error hreply)
    | fault fault => exact absurd (congrArg Reply.outcome hreply) (returned fault)

end Cons

theorem attemptEach_cons (act : ι → Action σ α) (i : ι) (state : σ) :
    (∃ fault, ∀ rest, attemptEach act (i :: rest) state =
        ⟨.fault fault, (act i state).state, (act i state).log⟩) ∨
      ∀ rest, attemptEach act (i :: rest) state =
        (attemptEach act rest (act i state).state).after (act i state).log :=
  (act i state).fault_or_returned.imp
    (fun ⟨fault, h⟩ => ⟨fault, attemptEach_of_fault act h⟩) (attemptEach_of_returned act)

theorem keeps_attemptEach_of_mem {act : ι → Action σ α} {items : List ι}
    (h : ∀ i ∈ items, Keeps P (act i)) : Keeps P (attemptEach act items) := by
  induction items with
  | nil => exact keeps_pure ()
  | cons i rest ih =>
    obtain ⟨hfirst, hrest⟩ := List.forall_mem_cons.1 h
    exact hfirst.attempt.bind fun _ => ih hrest

theorem keeps_attemptEach {act : ι → Action σ α} (h : ∀ i, Keeps P (act i)) (items : List ι) :
    Keeps P (attemptEach act items) :=
  keeps_attemptEach_of_mem fun i _ => h i

/-- With `P` before an action there is `Q` after it, also where it halts, and `P` again where it
returns. Then a run leaves `Q`, and `P` where nothing has halted it. -/
theorem kept_of_attemptEach {Q : σ → Prop} {act : ι → Action σ α}
    (h : ∀ i state, P state → Q (act i state).state ∧
      ((act i state).Returned → P (act i state).state))
    (holds : ∀ state, P state → Q state) (items : List ι) {state : σ} (hstate : P state) :
    Q (attemptEach act items state).state ∧
      ((attemptEach act items state).Returned → P (attemptEach act items state).state) := by
  induction items generalizing state with
  | nil => exact ⟨holds state hstate, fun _ => hstate⟩
  | cons i rest ih =>
    obtain ⟨hafter, hreturned⟩ := h i state hstate
    cases hreply : act i state with
    | mk outcome after log =>
      rw [hreply] at hafter hreturned
      unfold attemptEach
      cases outcome with
      | ok value =>
        rw [bind_of_ok (attempt_of_ok hreply)]
        exact ih (hreturned nofun)
      | error error =>
        rw [bind_of_ok (attempt_of_error hreply)]
        exact ih (hreturned nofun)
      | fault fault =>
        rw [bind_of_fault (attempt_of_fault hreply)]
        exact ⟨hafter, fun returned => absurd rfl (returned fault)⟩

/-- A run comes to its end, unless an action halts when the earlier ones have returned. -/
theorem ends_attemptEach (act : ι → Action σ α) (items : List ι) (state : σ) :
    (attemptEach act items state).outcome = .ok () ∨
      ∃ earlier i rest fault, items = earlier ++ i :: rest ∧
        (attemptEach act earlier state).outcome = .ok () ∧
        (act i (attemptEach act earlier state).state).outcome = .fault fault ∧
        (act i (attemptEach act earlier state).state).state =
          (attemptEach act items state).state := by
  induction items generalizing state with
  | nil => exact .inl rfl
  | cons i rest ih =>
    rcases (act i state).fault_or_returned with ⟨fault, halted⟩ | returned
    · refine .inr ⟨[], i, rest, fault, rfl, rfl, halted, ?_⟩
      rw [attemptEach_of_fault act halted]
      rfl
    · rw [attemptEach_of_returned act returned]
      refine (ih (act i state).state).imp_right ?_
      rintro ⟨earlier, j, later, fault, rfl, hearlier, halted, hstate⟩
      refine ⟨i :: earlier, j, later, fault, rfl, ?_⟩
      rw [attemptEach_of_returned act returned]
      exact ⟨hearlier, halted, hstate⟩

/-! ## Reachable states -/

/-- The states that `start` leads to by actions that return, with a value or with an error. -/
inductive Reachable (act : ι → Action σ α) (start : σ) : σ → Prop where
  | start : Reachable act start start
  | step (i : ι) {state : σ} (earlier : Reachable act start state)
      (returned : (act i state).Returned) : Reachable act start (act i state).state

section Reachable

variable {act : ι → Action σ α} {start middle state : σ}

theorem Reachable.trans (first : Reachable act start middle) (rest : Reachable act middle state) :
    Reachable act start state := by
  induction rest with
  | start => exact first
  | step i _ returned ih => exact .step i ih returned

theorem Reachable.kept (h : ∀ i state, (act i state).Returned → P state → P (act i state).state)
    (hreachable : Reachable act start state) (hstart : P start) : P state := by
  induction hreachable with
  | start => exact hstart
  | step i _ returned ih => exact h i _ returned ih

theorem Reachable.step_of_eq (i : ι) (earlier : Reachable act start state)
    {outcome : Outcome α} {after : σ} {log : List Notice} (h : act i state = ⟨outcome, after, log⟩)
    (returned : ∀ fault, outcome ≠ .fault fault) : Reachable act start after := by
  have hstep := Reachable.step i earlier (by rw [h]; exact returned)
  rw [h] at hstep
  exact hstep

/-- A run that no fault has stopped leads to a state that can be reached. -/
theorem reachable_of_attemptEach {items : List ι}
    (h : (attemptEach act items start).outcome = .ok ()) :
    Reachable act start (attemptEach act items start).state := by
  induction items generalizing start with
  | nil => exact .start
  | cons i rest ih =>
    cases hreply : act i start with
    | mk outcome after log =>
      have hfirst := Reachable.start.step_of_eq i hreply
      unfold attemptEach at h ⊢
      cases outcome with
      | ok value =>
        rw [bind_of_ok (attempt_of_ok hreply)] at h ⊢
        exact (hfirst nofun).trans (ih h)
      | error error =>
        rw [bind_of_ok (attempt_of_error hreply)] at h ⊢
        exact (hfirst nofun).trans (ih h)
      | fault fault =>
        rw [bind_of_fault (attempt_of_fault hreply)] at h
        cases h

end Reachable
end Action
end CellVisor
