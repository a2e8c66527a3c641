/-!
# CellVisor.Cpu.Control

Control registers in which features are switched on. Some bits of a register may be stuck: they keep
their value whatever is written.

* `ControlBank.read_write`: a write takes effect outside the stuck bits of its register only.
-/

namespace CellVisor

inductive ControlRegister
  | cr4
  | xcr0
  | efer
  deriving Repr, DecidableEq

/-- The value of a control register, and the bits of it that never change. -/
structure ControlCell where
  value : UInt64 := 0
  stuck : UInt64 := 0
  deriving Repr, DecidableEq

structure ControlBank where
  cr4 : ControlCell := {}
  xcr0 : ControlCell := {}
  efer : ControlCell := {}
  deriving Repr, DecidableEq

namespace ControlBank

def get (bank : ControlBank) : ControlRegister → ControlCell
  | .cr4 => bank.cr4
  | .xcr0 => bank.xcr0
  | .efer => bank.efer

def set (bank : ControlBank) (register : ControlRegister) (cell : ControlCell) : ControlBank :=
  match register with
  | .cr4 => { bank with cr4 := cell }
  | .xcr0 => { bank with xcr0 := cell }
  | .efer => { bank with efer := cell }

def read (bank : ControlBank) (register : ControlRegister) : UInt64 := (bank.get register).value

/-- The stuck bits keep what they have, the others take `value`. -/
def write (bank : ControlBank) (register : ControlRegister) (value : UInt64) : ControlBank :=
  let cell := bank.get register
  bank.set register { cell with value := (value &&& ~~~cell.stuck) ||| (cell.value &&& cell.stuck) }

/-- Makes the bits of `mask`, and only these, stuck. -/
def stick (bank : ControlBank) (register : ControlRegister) (mask : UInt64) : ControlBank :=
  bank.set register { bank.get register with stuck := mask }

theorem get_set (bank : ControlBank) (register other : ControlRegister) (cell : ControlCell) :
    (bank.set register cell).get other = if other = register then cell else bank.get other := by
  cases register <;> cases other <;> rfl

theorem read_write (bank : ControlBank) (register other : ControlRegister) (value : UInt64) :
    (bank.write register value).read other =
      if other = register then
        (value &&& ~~~(bank.get register).stuck) |||
          (bank.read register &&& (bank.get register).stuck)
      else bank.read other := by
  unfold write read
  rw [get_set]
  split <;> rfl

end ControlBank
end CellVisor
