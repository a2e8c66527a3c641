import CellVisor.Proofs.Action

/-!
# CellVisor.Proofs.Coupling

Two runs of the same code side by side. A relation between their states is kept step by step, and
what both runs give is related as well, so whatever differs between the states stays unseen.

* `Coupled.bind`: two sequences are coupled where their parts are.
* `Coupled.attempt`, `Coupled.zoom`, `Coupled.discard`: the same for what is built around an action.
* `Coupled.attemptEach`: runs of coupled actions end with the same outcome, the same notices and
  related states.
-/

namespace CellVisor

variable {σ τ α β ι : Type}

/-- Two replies with the same notices: both give values related by `V`, or both the same error, or
both halt alike; and `R` relates the states that they leave. -/
inductive Reply.Related (R : σ → σ → Prop) (V : α → α → Prop) : Reply σ α → Reply σ α → Prop where
  | ok {value value' : α} {state state' : σ} (log : List Notice) (values : V value value')
      (states : R state state') :
      Related R V ⟨.ok value, state, log⟩ ⟨.ok value', state', log⟩
  | error {state state' : σ} (error : Error) (log : List Notice) (states : R state state') :
      Related R V ⟨.error error, state, log⟩ ⟨.error error, state', log⟩
  | fault {state state' : σ} (fault : Fault) (log : List Notice) (states : R state state') :
      Related R V ⟨.fault fault, state, log⟩ ⟨.fault fault, state', log⟩

namespace Reply.Related

variable {R : σ → σ → Prop} {V : α → α → Prop} {first second : Reply σ α}

theorem states (h : Related R V first second) : R first.state second.state := by
  cases h <;> assumption

theorem log (h : Related R V first second) : first.log = second.log := by
  cases h <;> rfl

theorem outcome (h : Related R Eq first second) : first.outcome = second.outcome := by
  cases h with
  | ok _ values => rw [values]
  | error | fault => rfl

theorem after (h : Related R V first second) (earlier : List Notice) :
    Related R V (first.after earlier) (second.after earlier) := by
  cases h with
  | ok log values states => exact .ok _ values states
  | error error log states => exact .error error _ states
  | fault fault log states => exact .fault fault _ states

end Reply.Related

namespace Action

/-- From states related by `R` the two actions give related replies. -/
def Coupled (R : σ → σ → Prop) (V : α → α → Prop) (action action' : Action σ α) : Prop :=
  ∀ state state', R state state' → Reply.Related R V (action state) (action' state')

section Coupled

variable {R : σ → σ → Prop} {V : α → α → Prop} {W : β → β → Prop}

theorem coupled_pure {value value' : α} (h : V value value') :
    Coupled R V (pure value) (pure value') := fun _ _ states => .ok [] h states

theorem coupled_get : Coupled R R get get := fun _ _ states => .ok [] states states

theorem coupled_update {change change' : σ → σ}
    (h : ∀ state state', R state state' → R (change state) (change' state')) :
    Coupled R Eq (update change) (update change') := fun _ _ states => .ok [] rfl (h _ _ states)

theorem coupled_fail (error : Error) : Coupled R V (fail error) (fail error) :=
  fun _ _ states => .error error [] states

theorem coupled_note (notice : Notice) : Coupled R Eq (note notice) (note notice) :=
  fun _ _ states => .ok [notice] rfl states

theorem coupled_word (value : Option α) : Coupled R Eq (word value) (word value) := by
  cases value with
  | none => exact fun _ _ states => .fault .overflow [] states
  | some value => exact coupled_pure rfl

/-- A step that both runs refuse alike, or both take. -/
theorem coupled_ofStep {step step' : σ → Except Error σ}
    (h : ∀ state state', R state state' →
      (∃ error, step state = .error error ∧ step' state' = .error error) ∨
        ∃ next next', step state = .ok next ∧ step' state' = .ok next' ∧ R next next') :
    Coupled R Eq (ofStep step) (ofStep step') := by
  intro state state' states
  unfold ofStep
  rcases h state state' states with ⟨error, hstep, hstep'⟩ | ⟨next, next', hstep, hstep', hnext⟩
  · rw [hstep, hstep']
    exact .error error [] states
  · rw [hstep, hstep']
    exact .ok [] rfl hnext

/-- A reading that runs out in both runs, or is the same in both. -/
theorem coupled_ofReading {reading : σ → Option (α × σ)}
    (h : ∀ state state', R state state' →
      (reading state = none ∧ reading state' = none) ∨
        ∃ value next next', reading state = some (value, next) ∧
          reading state' = some (value, next') ∧ R next next') :
    Coupled R Eq (ofReading reading) (ofReading reading) := by
  intro state state' states
  unfold ofReading
  rcases h state state' states with ⟨hnone, hnone'⟩ | ⟨value, next, next', hsome, hsome', hnext⟩
  · rw [hnone, hnone']
    exact .fault .overflow [] states
  · rw [hsome, hsome']
    exact .ok [] rfl hnext

theorem Coupled.bind {action action' : Action σ α} {next next' : α → Action σ β}
    (first : Coupled R V action action')
    (rest : ∀ value value', V value value' → Coupled R W (next value) (next' value')) :
    Coupled R W (action >>= next) (action' >>= next') := by
  intro state state' states
  have hfirst := first state state' states
  rw [bind_apply, bind_apply]
  generalize action state = reply, action' state' = reply' at hfirst ⊢
  cases hfirst with
  | ok log values states =>
    rw [Reply.andThen_ok, Reply.andThen_ok]
    exact (rest _ _ values _ _ states).after log
  | error error log states => exact .error error log states
  | fault fault log states => exact .fault fault log states

/-- The common case: both runs go on with the same value. -/
theorem Coupled.bind_eq {action action' : Action σ α} {next next' : α → Action σ β}
    (first : Coupled R Eq action action') (rest : ∀ value, Coupled R W (next value) (next' value)) :
    Coupled R W (action >>= next) (action' >>= next') := by
  refine first.bind fun value value' hvalue => ?_
  rw [hvalue]
  exact rest value'

theorem coupled_fail_bind (error : Error) {next next' : α → Action σ β} :
    Coupled R W (fail error >>= next) (fail error >>= next') :=
  fun _ _ states => .error error [] states

/-- Both runs take the same branch. -/
theorem coupled_ite {p q : Prop} [Decidable p] [Decidable q] (same : p ↔ q)
    {yes yes' no no' : Action σ α} (hyes : Coupled R V yes yes') (hno : Coupled R V no no') :
    Coupled R V (if p then yes else no) (if q then yes' else no') := by
  by_cases hp : p
  · rw [if_pos hp, if_pos (same.1 hp)]
    exact hyes
  · rw [if_neg hp, if_neg fun hq => hp (same.2 hq)]
    exact hno

theorem Coupled.attempt {action action' : Action σ α} (h : Coupled R Eq action action') :
    Coupled R Eq action.attempt action'.attempt := by
  intro state state' states
  have hreply := h state state' states
  unfold Action.attempt
  generalize action state = reply, action' state' = reply' at hreply ⊢
  cases hreply with
  | ok log values states => exact .ok log (congrArg Except.ok values) states
  | error error log states => exact .ok log rfl states
  | fault fault log states => exact .fault fault log states

theorem Coupled.zoom {Rpart : τ → τ → Prop} {part : σ → τ} {replace : τ → σ → σ}
    {action action' : Action τ α} (h : Coupled Rpart V action action')
    (parts : ∀ state state', R state state' → Rpart (part state) (part state'))
    (wholes : ∀ state state' next next', R state state' → Rpart next next' →
      R (replace next state) (replace next' state')) :
    Coupled R V (action.zoom part replace) (action'.zoom part replace) := by
  intro state state' states
  have hreply := h _ _ (parts state state' states)
  rw [zoom_apply, zoom_apply]
  generalize action (part state) = reply, action' (part state') = reply' at hreply ⊢
  cases hreply with
  | ok log values next => exact .ok log values (wholes _ _ _ _ states next)
  | error error log next => exact .error error log (wholes _ _ _ _ states next)
  | fault fault log next => exact .fault fault log (wholes _ _ _ _ states next)

theorem Coupled.discard {action action' : Action σ α} (h : Coupled R V action action') :
    Coupled R Eq action.discard action'.discard :=
  h.bind fun _ _ _ => coupled_pure rfl

theorem Coupled.attemptEach {act : ι → Action σ α} (h : ∀ i, Coupled R Eq (act i) (act i))
    (items : List ι) : Coupled R Eq (attemptEach act items) (attemptEach act items) := by
  induction items with
  | nil => exact coupled_pure rfl
  | cons i rest ih => exact (h i).attempt.bind_eq fun _ => ih

end Coupled
end Action
end CellVisor
