import ExprHeap.Heap.Basic

/-!
# Collections

A collection is one cycle of three steps: it begins, it scans the regions, and it sweeps what
the scan has not found.  The collector is scanning until the live set is complete, and
reclaiming from the moment the sweep starts until the cycle ends.

Whoever shares the heap may go on between the steps: requests made after the cycle has begun
and before the scan, and requests made after the scan and before the sweep, all find the
barrier on, so nothing that they allocate, share or shade is swept.

`Heap.collect` runs the three steps at once, and `Heap.maybeCollect` runs them if the store has
grown past its trigger.

A scope keeps a collection waiting: one that is asked for while a scope is open runs when the
scope closes.
-/

namespace ExprHeap

/-- A cycle that has begun: its epoch and the number of slots at its beginning, the only ones
that it will sweep. -/
structure Cycle where
  epoch : Nat
  highWater : Nat
  deriving DecidableEq

/-- What a collection did. -/
structure Report where
  epoch : Nat
  scan : ScanStats
  live : Nat
  freed : Nat
  /-- The size of the store at the end, with the nodes allocated during the cycle. -/
  remaining : Nat
  deriving DecidableEq

/-- The size from which a store counts as grown, given its size after the last collection: the
product with the growth ratio in single precision, cut down to an integer. -/
def growthTrigger (config : Config) (previousSize : Nat) : Nat :=
  ((Ieee.Single.ofCount previousSize).mul config.growthRatio).toCount UInt64.size

namespace Heap

/-! ## The steps of a cycle -/

/-- Begins a cycle. -/
def beginCycle (heap : Heap) : Cycle × Heap :=
  let size := heap.store.size
  let arena := heap.store.arena.beginCycle
  let cycle := { epoch := arena.epoch, highWater := arena.table.size }
  (cycle, { heap with
    store := { heap.store with arena := arena }
    metrics := { heap.metrics.recordSize size with phase := .scanning }
    collectionWaiting := false }.note [.cycleBegun cycle.epoch size cycle.highWater])

/-- Finds the live set. -/
def scan (heap : Heap) (memory : Memory) : Except Fault (LiveSet × ScanStats × Heap) := do
  let heap := heap.settle
  let roots ← RootScan.ofRegions heap.store.arena memory heap.config.scanChunk
    heap.registry.regions
  let (live, stats) ← roots.finish heap.store.arena heap.config.scanChunk
  return (live, stats, heap.note (roots.sightings.toList.map .sighted ++ [.scanned stats]))

/-- Sweeps what is not in the live set, and answers with the handles of what it took away. -/
def reclaim (heap : Heap) (cycle : Cycle) (live : LiveSet) : Array Handle × Heap :=
  let heap := { heap with metrics := { heap.metrics with phase := .reclaiming } }
  let (freed, store) :=
    heap.store.sweep heap.config.reclaimBatch cycle.epoch live.contains 0 cycle.highWater
  (freed, { heap with store := store })

/-- Ends the cycle: its barrier is off, and the collector is idle. -/
def endCycle (heap : Heap) : Heap :=
  { heap with
    store := { heap.store with arena := heap.store.arena.endCycle }
    metrics := { heap.metrics with phase := .idle } }

/-- Sweeps what is not in the live set and ends the cycle, which took `elapsed` microseconds. -/
def finishCycle (heap : Heap) (cycle : Cycle) (live : LiveSet) (stats : ScanStats)
    (elapsed : UInt64) : Except Fault (Report × Heap) :=
  let (freed, heap) := heap.reclaim cycle live
  match live.toList.find? (!heap.store.arena.contains ·) with
  | some handle => .error (.liveNodeFreed handle)
  | none =>
    let heap := heap.endCycle
    let report : Report := {
      epoch := cycle.epoch
      scan := stats
      live := live.size
      freed := freed.size
      remaining := heap.store.size }
    let heap := { heap with
      metrics := heap.metrics.recordCollection elapsed report.live report.remaining }
    .ok (report, heap.note (freed.toList.map .reclaimed ++
      [.cycleDone report.epoch report.live report.freed report.remaining]))

/-! ## Whole collections -/

/-- Runs one cycle with nothing between its steps. -/
def collect (heap : Heap) (memory : Memory) (elapsed : UInt64) : Except Fault (Report × Heap) :=
  let (cycle, heap) := heap.beginCycle
  match heap.scan memory with
  | .ok (live, stats, heap) => heap.finishCycle cycle live stats elapsed
  | .error fault => .error fault

/-- Whether the store has reached both the threshold and its trigger. -/
def collectionDue (heap : Heap) : Bool :=
  max heap.config.collectThreshold (growthTrigger heap.config heap.metrics.previousSize) ≤
    heap.size

/-- Runs a cycle if one is due. -/
def maybeCollect (heap : Heap) (memory : Memory) (elapsed : UInt64) :
    Except Fault (Option Report × Heap) :=
  if heap.collectionDue then
    (heap.collect memory elapsed).map fun (report, heap) => (some report, heap)
  else .ok (none, heap)

/-! ## Scopes -/

/-- Asks for a collection while a scope is open. -/
def requestCollection (heap : Heap) : Heap :=
  { heap with collectionWaiting := true }

/-- Closes a scope, and runs the collection that waits for that. -/
def closeScope (heap : Heap) (memory : Memory) (elapsed : UInt64) :
    Except Fault (Option Report × Heap) :=
  if heap.collectionWaiting then
    (heap.collect memory elapsed).map fun (report, heap) => (some report, heap)
  else .ok (none, heap)

end Heap

end ExprHeap
