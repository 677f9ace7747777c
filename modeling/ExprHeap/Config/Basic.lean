import ExprHeap.Handle
import ExprHeap.Ieee.Single

/-!
# Configuration

The settings of a heap: when a collection is due, how many nodes the store may hold, and how
much work is done at a time.
-/

namespace ExprHeap

/-- The settings of a heap. -/
structure Config where
  /-- No collection is due while the store holds fewer nodes than this. -/
  collectThreshold : Nat
  /-- How many times its size after the last collection the store may grow to. -/
  growthRatio : Ieee.Single
  /-- The most nodes that the store may hold. -/
  maxNodes : Nat
  /-- How many slots or nodes the scan handles at a time. -/
  scanChunk : Nat
  /-- How many slots the sweep handles at a time. -/
  reclaimBatch : Nat
  deriving DecidableEq

namespace Config

/-- The settings that hold where nothing else is said. -/
def default : Config where
  collectThreshold := 65536
  growthRatio := ⟨0x40000000⟩
  maxNodes := Handle.indexBound
  scanChunk := 256
  reclaimBatch := 1024

end Config

end ExprHeap
