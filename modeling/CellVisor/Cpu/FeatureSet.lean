/-!
# CellVisor.Cpu.FeatureSet

Sets of the execution features that guests expect to find switched on.
-/

namespace CellVisor

structure FeatureSet where
  sse : Bool := false
  avx : Bool := false
  nx : Bool := false
  deriving Repr, DecidableEq

namespace FeatureSet

def names (features : FeatureSet) : List String :=
  (if features.sse then ["SSE"] else []) ++ (if features.avx then ["AVX"] else []) ++
    (if features.nx then ["NX"] else [])

/-- The set as a number, with a bit for each feature. -/
def bits (features : FeatureSet) : Nat :=
  (if features.sse then 1 else 0) + (if features.avx then 2 else 0) + (if features.nx then 4 else 0)

def text (features : FeatureSet) : String :=
  "CpuFeatures(" ++ (if features.names.isEmpty then "0x0" else " | ".intercalate features.names) ++
    ")"

end FeatureSet
end CellVisor
