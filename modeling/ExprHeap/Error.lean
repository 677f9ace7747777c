import ExprHeap.Expr.Node
import ExprHeap.Text.Numeral
import ExprHeap.Text.Quoted

/-!
# Errors and faults

An *error* is an answer to a request that cannot be met; the heap is as it was before.  A
*fault* is a broken promise inside the heap or a result that a caller took for granted, and
ends the computation that meets it.
-/

namespace ExprHeap

/-- The settings that the environment can override. -/
inductive Setting where
  | collectThreshold
  | growthRatio
  | maxNodes
  | scanChunk
  | reclaimBatch
  deriving DecidableEq

namespace Setting

/-- All settings, in the order in which they are read. -/
def all : List Setting := [.collectThreshold, .growthRatio, .maxNodes, .scanChunk, .reclaimBatch]

/-- The environment variable of a setting. -/
def variableName : Setting → String
  | .collectThreshold => "SYMGC_COLLECT_THRESHOLD"
  | .growthRatio => "SYMGC_GROWTH_RATIO"
  | .maxNodes => "SYMGC_MAX_NODES"
  | .scanChunk => "SYMGC_SCAN_CHUNK"
  | .reclaimBatch => "SYMGC_RECLAIM_BATCH"

end Setting

/-- Why a request was turned down. -/
inductive HeapError where
  /-- The word names no allocated node. -/
  | invalidHandle (word : UInt64)
  /-- A node was asked for with the wrong number of children. -/
  | arityMismatch (op : Op) (expected got : Nat)
  /-- An extract asked for bits outside its operand. -/
  | badExtract (first last width : UInt32)
  /-- The width of a result does not fit in 32 bits. -/
  | badWidth (op : Op)
  /-- The store holds as many nodes as it may. -/
  | outOfMemory (capacity : Nat)
  /-- A region does not start at a slot, or does not end within the address space. -/
  | misalignedRegion (base : UInt64)
  /-- A variable of the environment has no usable value. -/
  | invalidConfig (setting : Setting) (value : String)
  deriving DecidableEq

namespace HeapError

/-- What is said to the one who asked. -/
def message : HeapError → String
  | .invalidHandle word => "invalid expression handle " ++ Text.hex word.toNat
  | .arityMismatch op expected got =>
    op.text ++ " takes " ++ toString expected ++ " children, got " ++ toString got
  | .badExtract first last width =>
    "cannot extract bits " ++ toString first ++ "..=" ++ toString last ++ " from a " ++
      toString width ++ "-bit expression"
  | .badWidth op => op.text ++ " result width overflows a u32"
  | .outOfMemory capacity => "expression store is full (" ++ toString capacity ++ " nodes)"
  | .misalignedRegion base =>
    "region at " ++ Text.hex base.toNat ++ " is not aligned to a handle-sized slot"
  | .invalidConfig setting value =>
    "invalid value " ++ Text.quoted value ++ " for " ++ setting.variableName

/-- The name of the kind of error. -/
def kind : HeapError → String
  | .invalidHandle _ => "InvalidHandle"
  | .arityMismatch _ _ _ => "ArityMismatch"
  | .badExtract _ _ _ => "BadExtract"
  | .badWidth _ => "BadWidth"
  | .outOfMemory _ => "OutOfMemory"
  | .misalignedRegion _ => "MisalignedRegion"
  | .invalidConfig _ _ => "InvalidConfig"

/-- The error as a record of its fields. -/
def text (error : HeapError) : String :=
  Text.record error.kind <| match error with
    | .invalidHandle word => [("raw", toString word)]
    | .arityMismatch op expected got =>
      [("op", op.text), ("expected", toString expected), ("got", toString got)]
    | .badExtract first last width =>
      [("first", toString first), ("last", toString last), ("width", toString width)]
    | .badWidth op => [("op", op.text)]
    | .outOfMemory capacity => [("capacity", toString capacity)]
    | .misalignedRegion base => [("base", toString base)]
    | .invalidConfig setting value =>
      [("var", Text.quoted setting.variableName), ("value", Text.quoted value)]

end HeapError

/-- What ends a computation. -/
inductive Fault where
  /-- The scan met a child that is not allocated. -/
  | markedNodeMissing (handle : Handle)
  /-- A slot was marked in two generations, `known` first. -/
  | generationClash (known : UInt32)
  /-- The sweep took a node that the scan had found live. -/
  | liveNodeFreed (handle : Handle)
  /-- A number stands for no phase of a collection. -/
  | badPhase
  /-- A result was taken for granted and was an error. -/
  | unexpected (error : HeapError)
  /-- A slot was chosen in a frame without slots. -/
  | noSlots
  deriving DecidableEq

/-- What is said when a computation ends. -/
def Fault.message : Fault → String
  | .markedNodeMissing handle =>
    "marked node " ++ handle.text ++ " was freed during the scan"
  | .generationClash known =>
    "assertion `left == right` failed\n  left: " ++ toString known ++ "\n right: 0"
  | .liveNodeFreed handle =>
    "live node " ++ handle.text ++ " was freed by epoch reclamation"
  | .badPhase => "Bad GcState"
  | .unexpected error => "called `Result::unwrap()` on an `Err` value: " ++ error.text
  | .noSlots => "attempt to calculate the remainder with a divisor of zero"

end ExprHeap
