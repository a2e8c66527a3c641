import CellVisor.Error

/-!
# CellVisor.Cell.Id

The two cells of a machine, and values kept once per cell.

* `PerCell.get_set`: setting the value of one cell leaves the other as it was.
-/

namespace CellVisor

/-- One of the two guests that share the machine. -/
inductive CellId
  | linux
  | windows
  deriving Repr, DecidableEq

namespace CellId

def all : List CellId := [linux, windows]

def other : CellId → CellId
  | linux => windows
  | windows => linux

def index : CellId → Nat
  | linux => 0
  | windows => 1

def name : CellId → String
  | linux => "linux"
  | windows => "windows"

instance : ToString CellId := ⟨name⟩

def ofIndex (id : UInt8) : Except Error CellId :=
  if id = 0 then .ok linux
  else if id = 1 then .ok windows
  else .error (.config .cellIdOutOfRange)

@[simp] theorem other_other (id : CellId) : id.other.other = id := by cases id <;> rfl

theorem other_ne (id : CellId) : id.other ≠ id := by cases id <;> decide

theorem eq_or_eq_other (id cell : CellId) : id = cell ∨ id = cell.other := by
  cases id <;> cases cell <;> decide

end CellId

structure PerCell (α : Type) where
  linux : α
  windows : α
  deriving Repr, DecidableEq

namespace PerCell

variable {α β : Type}

def of (f : CellId → α) : PerCell α := ⟨f .linux, f .windows⟩

def get (values : PerCell α) : CellId → α
  | .linux => values.linux
  | .windows => values.windows

def set (values : PerCell α) (id : CellId) (value : α) : PerCell α :=
  match id with
  | .linux => { values with linux := value }
  | .windows => { values with windows := value }

def toList (values : PerCell α) : List α := [values.linux, values.windows]

@[simp] theorem get_of (f : CellId → α) (id : CellId) : (of f).get id = f id := by cases id <;> rfl

theorem get_set (values : PerCell α) (id cell : CellId) (value : α) :
    (values.set id value).get cell = if cell = id then value else values.get cell := by
  cases id <;> cases cell <;> rfl

@[simp] theorem get_set_self (values : PerCell α) (id : CellId) (value : α) :
    (values.set id value).get id = value := by
  cases id <;> rfl

@[simp] theorem get_set_other (values : PerCell α) (id : CellId) (value : α) :
    (values.set id value).get id.other = values.get id.other := by
  cases id <;> rfl

@[simp] theorem set_get (values : PerCell α) (id : CellId) :
    values.set id (values.get id) = values := by
  cases id <;> rfl

theorem ext_get {a b : PerCell α} (h : ∀ id, a.get id = b.get id) : a = b := by
  cases a
  cases b
  have h1 := h .linux
  have h2 := h .windows
  simp only [get] at h1 h2
  rw [h1, h2]

end PerCell
end CellVisor
