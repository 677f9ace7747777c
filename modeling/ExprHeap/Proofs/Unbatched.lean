import ExprHeap.Proofs.Sessions
import ExprHeap.Proofs.Collections

/-!
# What the sizes of batches and the clock do not change

Three loops of a collection work in batches: reading a region, marking from the roots, and the
sweep.  Each goes over the same things in the same order however it is cut: the slots of a region
(`RootScan.readRegion_eq`), the nodes found (`Marking.close_eq`), the slots of the store
(`Store.sweep_eq`).

A heap is *plain* when its batches have size one and no time has been measured.  Every heap has a
plain one, and whatever is done to a heap, its plain one goes through the same (`plain_scan`,
`plain_finishCycle`, `Session.plain_request`): the sizes of the batches and the average duration
are never read for anything else.

## Strategy

For the marking the cursor is moved node by node.  `close_one_of_expand` says that a burst of any
size may come first; the bursts of another size are then taken away one after the other, along the
recursion of `Marking.close`.
-/

namespace ExprHeap

variable {arena : Arena}

/-! ### The loops -/

namespace Marking

/-- While there are nodes to visit, closing goes on from where a burst ends. -/
theorem close_of_lt {marking : Marking} {cursor : Nat} (hcursor : cursor < marking.found.size)
    (arena : Arena) (chunk : Nat) :
    marking.close arena chunk cursor =
      match expand arena (max chunk 1) cursor marking with
      | .ok (next, result) => result.close arena chunk next
      | .error fault => .error fault := by
  rw [Marking.close, dif_pos hcursor]
  split
  · rename_i hexpand
    rw [hexpand]
  · rename_i hexpand
    rw [hexpand]

/-- Closing node by node may begin with a burst of any size. -/
theorem close_one_of_expand (arena : Arena) (burst cursor : Nat) (marking : Marking) :
    marking.close arena 1 cursor =
      match expand arena burst cursor marking with
      | .ok (next, result) => result.close arena 1 next
      | .error fault => .error fault := by
  -- a burst is so many steps of one, and a closure in bursts of one takes them singly
  induction burst generalizing cursor marking with
  | zero => rfl
  | succ burst ih =>
      cases hfound : marking.found[cursor]? with
      | none => simp only [expand, hfound]
      | some handle =>
          have hcursor : cursor < marking.found.size := (Array.getElem?_eq_some_iff.mp hfound).1
          rw [close_of_lt hcursor, Nat.max_self]
          cases hnode : arena.node? handle with
          | none => simp only [expand, hfound, hnode]
          | some node =>
              cases hmarkAll : marking.markAll node.children with
              | error fault => simp only [expand, hfound, hnode, hmarkAll]
              | ok marked =>
                  simp only [expand, hfound, hnode, hmarkAll]
                  exact ih (cursor + 1) marked

/-- **Marking does not depend on the size of its bursts.** -/
theorem close_eq (marking : Marking) (arena : Arena) (chunk cursor : Nat) :
    marking.close arena chunk cursor = marking.close arena 1 cursor := by
  fun_induction Marking.close marking arena chunk cursor with
  | case1 marking cursor hcursor next result hexpand ih =>
      rw [close_one_of_expand arena (max chunk 1) cursor marking, hexpand]
      exact ih
  | case2 marking cursor hcursor fault hexpand =>
      rw [close_one_of_expand arena (max chunk 1) cursor marking, hexpand]
  | case3 marking cursor hcursor =>
      exact (close_of_passed (Nat.le_of_not_lt hcursor)).symm

end Marking

namespace RootScan

theorem foldlM_readChunk (memory : Memory) (region : Region) (chunks : List Span)
    (scan : RootScan) :
    chunks.foldlM (readChunk arena memory region) scan =
      ((chunks.flatMap Span.indices).map fun slot => memory.read (region.address slot)).foldlM
        (note arena) scan := by
  induction chunks generalizing scan with
  | nil => rfl
  | cons span rest ih =>
      rw [List.foldlM_cons, List.flatMap_cons, List.map_append, List.foldlM_append]
      simp only [ih]
      rfl

/-- **A region is read slot by slot, whatever the chunks.** -/
theorem readRegion_eq (arena : Arena) (memory : Memory) (chunk : Nat) (scan : RootScan)
    (region : Region) : readRegion arena memory chunk scan region =
      (region.words memory).foldlM (note arena)
        { scan with regions := scan.regions + 1, slots := scan.slots + region.length.toNat } := by
  rw [readRegion, foldlM_readChunk, flatMap_indices_spans, Nat.sub_zero, Region.words,
    List.range_eq_range']

theorem ofRegions_eq (arena : Arena) (memory : Memory) (chunk : Nat) (regions : List Region) :
    ofRegions arena memory chunk regions = ofRegions arena memory 1 regions := by
  have hread : readRegion arena memory chunk = readRegion arena memory 1 := by
    funext scan region
    rw [readRegion_eq, readRegion_eq]
  rw [ofRegions, ofRegions, hread]

theorem finish_chunk_eq (arena : Arena) (chunk : Nat) (scan : RootScan) :
    scan.finish arena chunk = scan.finish arena 1 := by
  rw [finish_eq]
  dsimp only
  rw [Marking.close_eq]

end RootScan

/-- **The sweep does not depend on the size of its batches.** -/
theorem Store.sweep_eq (store : Store) (batch epoch : Nat) (isLive : Handle → Bool)
    (start stop : Nat) :
    store.sweep batch epoch isLive start stop = store.sweep 1 epoch isLive start stop := by
  unfold sweep
  rw [Sweep.foldl_visitSpan, Sweep.foldl_visitSpan]

/-! ### Plain heaps -/

/-- Settings with batches of size one. -/
def Config.plain (config : Config) : Config := { config with scanChunk := 1, reclaimBatch := 1 }

namespace Heap

/-- A heap without what its settings say of batches and without what the clock has said. -/
def plain (heap : Heap) : Heap :=
  { heap with
    config := heap.config.plain
    metrics := { heap.metrics with averageTime := 0 } }

/-- What a scan makes of what it has read, as far as it can be read off the heap afterwards. -/
theorem plain_scanned (heap : Heap) (read : Except Fault RootScan)
    (finish : RootScan → Except Fault (LiveSet × ScanStats)) :
    (read.bind fun roots => (finish roots).bind fun (live, stats) =>
      .ok (live, stats, heap.plain.settle.note
        (roots.sightings.toList.map .sighted ++ [.scanned stats]))) =
    (read.bind fun roots => (finish roots).bind fun (live, stats) =>
      .ok (live, stats, heap.settle.note
        (roots.sightings.toList.map .sighted ++ [.scanned stats]))).map
      fun (live, stats, scanned) => (live, stats, scanned.plain) := by
  cases read with
  | error fault => rfl
  | ok roots =>
      simp only [Except.bind]
      cases finish roots with
      | error fault => rfl
      | ok found => rfl

theorem plain_scan (heap : Heap) (memory : Memory) :
    heap.plain.scan memory =
      (heap.scan memory).map fun (live, stats, scanned) => (live, stats, scanned.plain) := by
  -- read in chunks of any size, the regions give what they give in chunks of one
  have hread : RootScan.ofRegions heap.store.arena memory heap.config.scanChunk =
      RootScan.ofRegions heap.store.arena memory 1 := funext (RootScan.ofRegions_eq _ _ _)
  have hfinish : RootScan.finish heap.store.arena heap.config.scanChunk =
      RootScan.finish heap.store.arena 1 := funext (RootScan.finish_chunk_eq _ _)
  rw [scan_eq]
  dsimp only
  rw [hread, hfinish]
  exact plain_scanned heap (RootScan.ofRegions heap.store.arena memory 1 heap.snapshotRegions)
    (RootScan.finish heap.store.arena 1)

theorem plain_reclaim (heap : Heap) (cycle : Cycle) (live : LiveSet) :
    heap.plain.reclaim cycle live =
      ((heap.reclaim cycle live).1, (heap.reclaim cycle live).2.plain) := by
  have hsweep : heap.store.sweep heap.plain.config.reclaimBatch cycle.epoch live.contains 0
      cycle.highWater = heap.store.sweep heap.config.reclaimBatch cycle.epoch live.contains 0
        cycle.highWater := by
    rw [Store.sweep_eq, Store.sweep_eq heap.store heap.config.reclaimBatch]
  exact congrArg (fun swept : Array Handle × Store => (swept.1,
    { heap.plain with
      store := swept.2
      metrics := { heap.plain.metrics with phase := .reclaiming } })) hsweep

theorem plain_finishCycle (heap : Heap) (cycle : Cycle) (live : LiveSet) (stats : ScanStats)
    (elapsed other : UInt64) :
    (heap.plain.finishCycle cycle live stats other).map
        (fun (report, final) => (report, final.plain)) =
      (heap.finishCycle cycle live stats elapsed).map
        fun (report, final) => (report, final.plain) := by
  -- the check looks at the store only
  have hstore : (heap.reclaim cycle live).2.plain.store = (heap.reclaim cycle live).2.store := rfl
  unfold finishCycle
  rw [plain_reclaim]
  dsimp only
  rw [hstore]
  split
  · rfl
  · rfl

theorem plain_build (heap : Heap) (construction : Construction) :
    heap.plain.build construction =
      (heap.build construction).map fun (handle, after) => (handle, after.plain) := by
  unfold build
  have hstore : heap.plain.store = heap.store := rfl
  rw [hstore]
  cases construction.toNode heap.store.widthOf with
  | error error => rfl
  | ok node =>
      simp only [allocate, hstore]
      cases heap.store.allocate node with
      | error error => rfl
      | ok answer => rfl

theorem plain_shade (heap : Heap) (handle : Handle) :
    heap.plain.shade handle = (heap.shade handle).map plain := by
  have hstore : heap.plain.store = heap.store := rfl
  unfold shade
  rw [hstore]
  cases heap.store.shade handle with
  | error error => rfl
  | ok store => rfl

theorem plain_register (heap : Heap) (base length : UInt64) (kind : RegionKind) :
    heap.plain.register base length kind = (heap.register base length kind).map plain := by
  have hregistry : heap.plain.registry = heap.registry := rfl
  unfold register
  rw [hregistry]
  cases heap.registry.register base length kind with
  | error error => rfl
  | ok registry => rfl

/-- Whether a collection is due is not told by the batches. -/
theorem plain_collectionDue (heap : Heap) : heap.plain.collectionDue = heap.collectionDue := by
  unfold collectionDue growthTrigger
  rfl

end Heap

/-! ### Plain sessions -/

namespace Session

/-- A session with a plain heap. -/
def plain (session : Session) : Session := { session with heap := session.heap.plain }

/-- **A request does the same to the plain session.** -/
theorem plain_request (session : Session) (asked : Request) :
    (session.request asked).plain = session.plain.request asked := by
  cases asked with
  | build construction =>
      simp only [request, plain, Heap.plain_build]
      cases session.heap.build construction with
      | error error => rfl
      | ok answer => rfl
  | shade handle =>
      simp only [request, plain, Heap.plain_shade]
      cases session.heap.shade handle with
      | error error => rfl
      | ok heap => rfl
  | register base length kind =>
      simp only [request, plain, Heap.plain_register]
      cases session.heap.register base length kind with
      | error error => rfl
      | ok heap => rfl
  | unregister base length => rfl
  | settle => rfl
  | write address word => rfl

theorem plain_requestAll (session : Session) (requests : List Request) :
    (session.requestAll requests).plain = session.plain.requestAll requests := by
  induction requests generalizing session with
  | nil => rfl
  | cons first rest ih => rw [requestAll_cons, requestAll_cons, ih, plain_request]

end Session

end ExprHeap
