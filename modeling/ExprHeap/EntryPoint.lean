import ExprHeap.Config.Environment
import ExprHeap.Heap.Collection

/-!
# Entry points for instrumented code

Instrumented code shares one heap, configured from the environment, and calls it through entry
points that answer nothing.  What goes wrong in one is put in the journal and ignored.
-/

namespace ExprHeap.EntryPoint

/-- The shared heap.  An unusable environment counts as an empty one. -/
def start (lookup : Setting → Option String) : Heap :=
  match Config.ofLookup lookup with
  | .ok config => .empty config
  | .error error => (Heap.empty .default).note [.defaulted error]

/-- Registers a row of slots. -/
def register (heap : Heap) (base length : UInt64) : Heap :=
  match heap.register base length .other with
  | .ok heap => heap
  | .error error => heap.note [.regionIgnored error]

/-- Takes a row of slots out of the regions. -/
def unregister (heap : Heap) (base length : UInt64) : Heap :=
  heap.unregister base length

/-- Runs a collection. -/
def collect (heap : Heap) (memory : Memory) (elapsed : UInt64) : Except Fault Heap :=
  (heap.collect memory elapsed).map Prod.snd

/-- Runs a collection if one is due. -/
def maybeCollect (heap : Heap) (memory : Memory) (elapsed : UInt64) : Except Fault Heap :=
  (heap.maybeCollect memory elapsed).map Prod.snd

end ExprHeap.EntryPoint
