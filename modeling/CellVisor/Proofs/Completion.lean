import CellVisor.Proofs.Action

/-!
# CellVisor.Proofs.Completion

Actions that come to an end, from every state with a property.

* `Completes`: the action gives a value, and `Completes.bind` what a sequence gives.
* `Returns`: the action gives a value or an error, and does not halt; attempting it then completes.
-/

namespace CellVisor
namespace Action

variable {σ τ α β : Type} {P : σ → Prop}

/-- From every state with `P`, `action` gives a value and leads to a state as `Q` says. -/
def Completes (P : σ → Prop) (action : Action σ α) (Q : α → σ → Prop) : Prop :=
  ∀ state, P state → ∃ value after log, action state = ⟨.ok value, after, log⟩ ∧ Q value after

/-- From every state with `P`, `action` gives a value or an error, and leads to a state with
`P`. -/
def Returns (P : σ → Prop) (action : Action σ α) : Prop :=
  ∀ state, P state → (action state).Returned ∧ P (action state).state

/-! ## Completion -/

section Completes

variable {Q : α → σ → Prop}

theorem Completes.of_eq {action : Action σ α} (h : Completes P action Q) {state after : σ}
    {value : α} {log : List Notice} (hstate : P state)
    (hreply : action state = ⟨.ok value, after, log⟩) : Q value after := by
  obtain ⟨_, _, _, hends, hq⟩ := h state hstate
  rw [hreply] at hends
  cases hends
  exact hq

theorem completes_pure {value : α} (h : ∀ state, P state → Q value state) :
    Completes P (pure value) Q := fun state hstate => ⟨value, state, [], rfl, h state hstate⟩

theorem completes_value (value : α) : Completes P (pure value) fun _ => P :=
  completes_pure fun _ h => h

theorem completes_note (notice : Notice) : Completes P (note notice) fun _ => P :=
  fun state h => ⟨(), state, [notice], rfl, h⟩

theorem completes_get : Completes P get fun found state => found = state ∧ P state :=
  fun state h => ⟨state, state, [], rfl, rfl, h⟩

theorem completes_update {change : σ → σ} {R : σ → Prop}
    (h : ∀ state, P state → R (change state)) : Completes P (update change) fun _ => R :=
  fun state hstate => ⟨(), change state, [], rfl, h state hstate⟩

theorem Completes.bind {R : β → σ → Prop} {action : Action σ α} {next : α → Action σ β}
    (first : Completes P action Q) (rest : ∀ value, Completes (Q value) (next value) R) :
    Completes P (action >>= next) R := by
  intro state hstate
  obtain ⟨value, after, log, hreply, hafter⟩ := first state hstate
  obtain ⟨result, last, log', hnext, hlast⟩ := rest value after hafter
  refine ⟨result, last, log ++ log', ?_, hlast⟩
  rw [bind_of_ok hreply, hnext, Reply.after_mk]

/-- An action that is run on a state built around the present one completes as it does there. -/
theorem Completes.around {build : σ → τ} {back : τ → σ} {S : τ → Prop} {R : α → τ → Prop}
    {action : Action τ α} (h : Completes S action R) (enter : ∀ state, P state → S (build state))
    (leave : ∀ value state, R value state → Q value (back state)) :
    Completes P (action.around build back) Q := by
  intro state hstate
  obtain ⟨value, after, log, hreply, hafter⟩ := h (build state) (enter state hstate)
  refine ⟨value, back after, log, ?_, leave value after hafter⟩
  unfold Action.around
  rw [hreply]

end Completes

/-! ## Return -/

theorem returns_fail (error : Error) : Returns P (fail error : Action σ α) :=
  fun _ h => ⟨by simp [Reply.Returned], h⟩

theorem Completes.returns {action : Action σ α} (h : Completes P action fun _ => P) :
    Returns P action := by
  intro state hstate
  obtain ⟨value, after, log, hreply, hafter⟩ := h state hstate
  rw [hreply]
  exact ⟨by simp [Reply.Returned], hafter⟩

theorem returns_get : Returns P get := fun _ h => ⟨by simp [Reply.Returned], h⟩

theorem Returns.bind {action : Action σ α} {next : α → Action σ β} (first : Returns P action)
    (rest : ∀ value, Returns P (next value)) : Returns P (action >>= next) := by
  intro state hstate
  obtain ⟨hreturned, hfirst⟩ := first state hstate
  cases hreply : action state with
  | mk outcome after log =>
    rw [hreply] at hreturned hfirst
    cases outcome with
    | ok value =>
      rw [bind_of_ok hreply]
      exact rest value after hfirst
    | error error =>
      rw [bind_of_error hreply]
      exact ⟨by simp [Reply.Returned], hfirst⟩
    | fault fault => exact absurd rfl (hreturned fault)

theorem Returns.attempt {action : Action σ α} (h : Returns P action) :
    Completes P action.attempt fun _ => P := by
  intro state hstate
  obtain ⟨hreturned, hafter⟩ := h state hstate
  cases hreply : action state with
  | mk outcome after log =>
    rw [hreply] at hreturned hafter
    cases outcome with
    | ok value => exact ⟨_, after, log, attempt_of_ok hreply, hafter⟩
    | error error => exact ⟨_, after, log, attempt_of_error hreply, hafter⟩
    | fault fault => exact absurd rfl (hreturned fault)

/-- An action on a part returns on the whole, where a change of the part does not touch `P`. -/
theorem Returns.zoom {part : σ → τ} {replace : τ → σ → σ} {action : Action τ α}
    (h : Returns (fun _ => True) action)
    (hreplace : ∀ value state, P state → P (replace value state)) :
    Returns P (action.zoom part replace) :=
  fun state hstate => ⟨(h (part state) trivial).1, hreplace _ state hstate⟩

end Action
end CellVisor
