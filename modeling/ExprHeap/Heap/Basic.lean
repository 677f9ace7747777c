import ExprHeap.Config.Basic
import ExprHeap.Event
import ExprHeap.Metrics
import ExprHeap.Store.Sweep

/-!
# The heap

The heap ties the store of nodes, the registry of regions and the collector together.  It also
keeps a journal of what happened, oldest first.

Queries that answer with the regions, or with their number, settle the registry first.
-/

namespace ExprHeap

/-- The store, the regions, and what is needed to collect. -/
structure Heap where
  config : Config
  store : Store
  registry : Registry
  metrics : Metrics
  /-- Whether a collection waits for the open scope to close. -/
  collectionWaiting : Bool
  journal : Array Event

/-- The counters of a heap at one moment. -/
structure Snapshot where
  phase : Phase
  collections : Nat
  averageTime : UInt64
  allocated : Nat
  internHits : Nat
  freed : Nat
  lastLive : Nat
  size : Nat
  previousSize : Nat
  largestSize : Nat
  regions : Nat
  deriving DecidableEq

/-- The counters as named fields. -/
def Snapshot.fields (snapshot : Snapshot) : List (String × String) := [
  ("state", snapshot.phase.text),
  ("collections", toString snapshot.collections),
  ("collect_avg_time", toString snapshot.averageTime),
  ("total_allocated", toString snapshot.allocated),
  ("intern_hits", toString snapshot.internHits),
  ("total_freed", toString snapshot.freed),
  ("last_live_nodes", toString snapshot.lastLive),
  ("store_size", toString snapshot.size),
  ("prev_store_size", toString snapshot.previousSize),
  ("max_store_size", toString snapshot.largestSize),
  ("registered_regions", toString snapshot.regions)]

/-- What was left when a heap was shut down. -/
structure Leftover where
  nodes : Nat
  regions : Nat
  deriving DecidableEq

namespace Heap

/-- A heap without nodes and regions. -/
def empty (config : Config) : Heap where
  config := config
  store := .empty config.maxNodes
  registry := .empty
  metrics := .initial
  collectionWaiting := false
  journal := #[]

/-- Adds to the journal. -/
def note (heap : Heap) (events : List Event) : Heap :=
  { heap with journal := heap.journal ++ events }

/-- The number of nodes. -/
def size (heap : Heap) : Nat := heap.store.size

/-! ## Nodes -/

/-- Answers with the handle of a node, which is allocated unless there is an equal one. -/
def allocate (heap : Heap) (node : Node) : Except HeapError (Handle × Heap) :=
  match heap.store.allocate node with
  | .ok (allocation, store) =>
    .ok (allocation.handle,
      { heap with store := store }.note (Event.ofAllocation node.op allocation))
  | .error error => .error error

/-- Keeps a node and everything below it alive through the collection under way, if any. -/
def shade (heap : Heap) (handle : Handle) : Except HeapError Heap :=
  (heap.store.shade handle).map fun store => { heap with store := store }

/-! ## Regions -/

/-- Registers a row of slots as a source of roots. -/
def register (heap : Heap) (base length : UInt64) (kind : RegionKind) : Except HeapError Heap :=
  (heap.registry.register base length kind).map fun registry => { heap with registry := registry }

/-- Settles the registry. -/
def settle (heap : Heap) : Heap :=
  let (registered, registry) := heap.registry.settle
  { heap with registry := registry }.note (registered.map .registered)

/-- The regions in order. -/
def regions (heap : Heap) : List Region × Heap :=
  let heap := heap.settle
  (heap.registry.regions, heap)

/-- Takes exactly this row of slots out of the regions at once. -/
def unregister (heap : Heap) (base length : UInt64) : Heap :=
  { heap with registry := heap.registry.unregister base length }.settle

/-! ## Counters and the end -/

/-- The counters. -/
def snapshot (heap : Heap) : Snapshot × Heap :=
  let heap := heap.settle
  ({ phase := heap.metrics.phase
     collections := heap.metrics.collections
     averageTime := heap.metrics.averageTime
     allocated := heap.store.allocations
     internHits := heap.store.internHits
     freed := heap.store.frees
     lastLive := heap.metrics.lastLive
     size := heap.store.size
     previousSize := heap.metrics.previousSize
     largestSize := heap.metrics.largestSize
     regions := heap.registry.regions.length }, heap)

/-- Gives up all nodes and regions and answers how many were left. -/
def shutdown (heap : Heap) : Leftover × Heap :=
  let heap := heap.settle
  let (regions, registry) := heap.registry.clear
  let (nodes, store) := heap.store.clear
  ({ nodes := nodes, regions := regions },
    { heap with registry := registry, store := store }.note [.shutDown nodes regions])

end Heap

end ExprHeap
