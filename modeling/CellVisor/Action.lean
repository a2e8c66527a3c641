import CellVisor.Log.Notice

/-!
# CellVisor.Action

Computations over a state that may fail and that report what they do. Whatever the outcome, a reply
has the state that was reached and the notices given so far, so a failure undoes nothing.

* `Reply.andThen_ok`, `Reply.andThen_error`: a sequence goes on after a value, and stops at an
  error.
* `get_apply`, `update_apply`, `fail_apply`, `halt_apply`, `note_apply`: what the basic actions do.
* `zoom_apply`: an action on a part of a state changes that part only.
-/

namespace CellVisor

/-- What cannot go on: the control plane stops where it is. -/
inductive Fault
  /-- A number left its word. -/
  | overflow
  /-- An index outside a fixed space. -/
  | outOfBounds
  deriving Repr, DecidableEq

inductive Outcome (α : Type)
  | ok (value : α)
  | error (error : Error)
  | fault (fault : Fault)
  deriving Repr, DecidableEq

/-- The outcome of a computation, the state it leaves and its notices, the first first. -/
structure Reply (σ α : Type) where
  outcome : Outcome α
  state : σ
  log : List Notice := []
  deriving Repr, DecidableEq

/-- A computation over states of type `σ` with values of type `α`. -/
def Action (σ α : Type) := σ → Reply σ α

variable {σ τ α β : Type}

namespace Reply

def after (reply : Reply σ α) (earlier : List Notice) : Reply σ α :=
  { reply with log := earlier ++ reply.log }

/-- Goes on with `next` after a value; an error or fault is final. -/
def andThen (reply : Reply σ α) (next : α → Action σ β) : Reply σ β :=
  match reply.outcome with
  | .ok value => (next value reply.state).after reply.log
  | .error error => ⟨.error error, reply.state, reply.log⟩
  | .fault fault => ⟨.fault fault, reply.state, reply.log⟩

theorem andThen_ok (value : α) (state : σ) (log : List Notice) (next : α → Action σ β) :
    (⟨.ok value, state, log⟩ : Reply σ α).andThen next = (next value state).after log := rfl

theorem andThen_error (error : Error) (state : σ) (log : List Notice) (next : α → Action σ β) :
    (⟨.error error, state, log⟩ : Reply σ α).andThen next = ⟨.error error, state, log⟩ := rfl

theorem andThen_fault (fault : Fault) (state : σ) (log : List Notice) (next : α → Action σ β) :
    (⟨.fault fault, state, log⟩ : Reply σ α).andThen next = ⟨.fault fault, state, log⟩ := rfl

@[simp] theorem outcome_after (reply : Reply σ α) (earlier : List Notice) :
    (reply.after earlier).outcome = reply.outcome := rfl

@[simp] theorem state_after (reply : Reply σ α) (earlier : List Notice) :
    (reply.after earlier).state = reply.state := rfl

@[simp] theorem log_after (reply : Reply σ α) (earlier : List Notice) :
    (reply.after earlier).log = earlier ++ reply.log := rfl

@[simp] theorem after_nil (reply : Reply σ α) : reply.after [] = reply := rfl

end Reply

namespace Action

instance : Monad (Action σ) where
  pure value := fun state => ⟨.ok value, state, []⟩
  bind action next := fun state => (action state).andThen next

/-- Lifts a step that is refused or taken; a refusal changes nothing. -/
def ofStep (step : σ → Except Error σ) : Action σ Unit := fun state =>
  match step state with
  | .ok next => ⟨.ok (), next, []⟩
  | .error error => ⟨.error error, state, []⟩

/-- Lifts a reading, which halts when its word has run out. -/
def ofReading (reading : σ → Option (α × σ)) : Action σ α := fun state =>
  match reading state with
  | some (value, next) => ⟨.ok value, next, []⟩
  | none => ⟨.fault .overflow, state, []⟩

theorem pure_apply (value : α) (state : σ) :
    (pure value : Action σ α) state = ⟨.ok value, state, []⟩ := rfl

theorem bind_apply (action : Action σ α) (next : α → Action σ β) (state : σ) :
    (action >>= next) state = (action state).andThen next := rfl

def get : Action σ σ := fun state => ⟨.ok state, state, []⟩

def update (change : σ → σ) : Action σ Unit := fun state => ⟨.ok (), change state, []⟩

def fail (error : Error) : Action σ α := fun state => ⟨.error error, state, []⟩

def halt (fault : Fault) : Action σ α := fun state => ⟨.fault fault, state, []⟩

def note (notice : Notice) : Action σ Unit := fun state => ⟨.ok (), state, [notice]⟩

/-- The value, or a halt because a number left its word. -/
def word : Option α → Action σ α
  | some value => pure value
  | none => halt .overflow

/-- Makes an error of `action` a value; the state it left and its notices stay. -/
def attempt (action : Action σ α) : Action σ (Except Error α) := fun state =>
  let reply := action state
  match reply.outcome with
  | .ok value => ⟨.ok (.ok value), reply.state, reply.log⟩
  | .error error => ⟨.ok (.error error), reply.state, reply.log⟩
  | .fault fault => ⟨.fault fault, reply.state, reply.log⟩

def zoom (part : σ → τ) (replace : τ → σ → σ) (action : Action τ α) : Action σ α := fun state =>
  let reply := action (part state)
  ⟨reply.outcome, replace reply.state state, reply.log⟩

/-- Runs `action` on a state that is built around the present one, and keeps of it what `back`
gives. -/
def around (build : σ → τ) (back : τ → σ) (action : Action τ α) : Action σ α := fun state =>
  let reply := action (build state)
  ⟨reply.outcome, back reply.state, reply.log⟩

/-- Lifts a check that touches no state. -/
def ofExcept : Except Error α → Action σ α
  | .ok value => pure value
  | .error error => fail error

@[simp] theorem get_apply (state : σ) : (get : Action σ σ) state = ⟨.ok state, state, []⟩ := rfl

@[simp] theorem update_apply (change : σ → σ) (state : σ) :
    update change state = ⟨.ok (), change state, []⟩ := rfl

@[simp] theorem fail_apply (error : Error) (state : σ) :
    (fail error : Action σ α) state = ⟨.error error, state, []⟩ := rfl

@[simp] theorem halt_apply (fault : Fault) (state : σ) :
    (halt fault : Action σ α) state = ⟨.fault fault, state, []⟩ := rfl

@[simp] theorem note_apply (notice : Notice) (state : σ) :
    note notice state = ⟨.ok (), state, [notice]⟩ := rfl

theorem zoom_apply (part : σ → τ) (replace : τ → σ → σ) (action : Action τ α) (state : σ) :
    zoom part replace action state =
      ⟨(action (part state)).outcome, replace (action (part state)).state state,
        (action (part state)).log⟩ := rfl

end Action
end CellVisor
