/-!
# CellVisor.Cpu.Context

The register context of a core: what it hands over when it is frozen, and reloads when it is thawed.
-/

namespace CellVisor

/-- The registers of a core that are saved with its cell. -/
structure Context where
  rax : UInt64 := 0
  rbx : UInt64 := 0
  rcx : UInt64 := 0
  rdx : UInt64 := 0
  rsi : UInt64 := 0
  rdi : UInt64 := 0
  rbp : UInt64 := 0
  rsp : UInt64 := 0
  r8 : UInt64 := 0
  r9 : UInt64 := 0
  r10 : UInt64 := 0
  r11 : UInt64 := 0
  r12 : UInt64 := 0
  r13 : UInt64 := 0
  r14 : UInt64 := 0
  r15 : UInt64 := 0
  rip : UInt64 := 0
  rflags : UInt64 := 0
  cr0 : UInt64 := 0
  cr2 : UInt64 := 0
  cr3 : UInt64 := 0
  cr4 : UInt64 := 0
  dr0 : UInt64 := 0
  dr1 : UInt64 := 0
  dr2 : UInt64 := 0
  dr3 : UInt64 := 0
  deriving Repr, DecidableEq, Inhabited

namespace Context

/-- The context of a core that starts at `entry` with every other register clear. -/
def startingAt (entry : UInt64) : Context := { rip := entry }

def registers (c : Context) : List (String × UInt64) :=
  [("rax", c.rax), ("rbx", c.rbx), ("rcx", c.rcx), ("rdx", c.rdx), ("rsi", c.rsi), ("rdi", c.rdi),
    ("rbp", c.rbp), ("rsp", c.rsp), ("r8", c.r8), ("r9", c.r9), ("r10", c.r10), ("r11", c.r11),
    ("r12", c.r12), ("r13", c.r13), ("r14", c.r14), ("r15", c.r15), ("rip", c.rip),
    ("rflags", c.rflags), ("cr0", c.cr0), ("cr2", c.cr2), ("cr3", c.cr3), ("cr4", c.cr4),
    ("dr0", c.dr0), ("dr1", c.dr1), ("dr2", c.dr2), ("dr3", c.dr3)]

/-- The context whose registers have the values that `value` gives for their names. -/
def ofRegisters (value : String → UInt64) : Context where
  rax := value "rax"
  rbx := value "rbx"
  rcx := value "rcx"
  rdx := value "rdx"
  rsi := value "rsi"
  rdi := value "rdi"
  rbp := value "rbp"
  rsp := value "rsp"
  r8 := value "r8"
  r9 := value "r9"
  r10 := value "r10"
  r11 := value "r11"
  r12 := value "r12"
  r13 := value "r13"
  r14 := value "r14"
  r15 := value "r15"
  rip := value "rip"
  rflags := value "rflags"
  cr0 := value "cr0"
  cr2 := value "cr2"
  cr3 := value "cr3"
  cr4 := value "cr4"
  dr0 := value "dr0"
  dr1 := value "dr1"
  dr2 := value "dr2"
  dr3 := value "dr3"

end Context
end CellVisor
