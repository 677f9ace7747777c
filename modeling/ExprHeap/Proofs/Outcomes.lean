import ExprHeap.Heap.Construction
import ExprHeap.Proofs.Representation
import ExprHeap.Proofs.StoreRuns

/-!
# The answers to a request for a node

A request for a node has five answers, and which one it gets is told by the nodes that are
allocated and by their number: `Store.Answers` says when each is given, in the order in which they
take precedence, and what it does to the store.  Nothing else about the store plays a part, in
particular not whether a cycle is active.

## Working in place

`Arena.allocate` answers with a new arena or with an error, so an error cannot come with a changed
arena.  A store that is shared is changed in place instead, one record after the other, and a
request that is turned down leaves behind what it has changed until then.  `InPlace.allocate` and
`InPlace.build` are the requests as programs of that kind.  They leave the store as `Store.allocate`
and `Heap.build` would have it (`InPlace.runOn_allocate`, `InPlace.runOn_build`), which says two
things: the changes made one by one add up to the new store, and none of them is made before the
last test has been passed.
-/

namespace ExprHeap

/-- A program that works on a store in place.  What it has changed before it is turned down stays
changed. -/
abbrev InPlace := ExceptT HeapError (StateM Store)

namespace InPlace

variable {α β : Type} {store : Store}

/-- Runs a program on a store: its answer, and the store as it leaves it. -/
def runOn (program : InPlace α) (store : Store) : Except HeapError α × Store :=
  Id.run (StateT.run (ExceptT.run program) store)

/-! ### The programs -/

/-- Changes the arena. -/
def changeArena (change : Arena → Arena) : InPlace Unit :=
  modify fun store => { store with arena := change store.arena }

/-- Goes on only if a handle names a node. -/
def require (handle : Handle) : InPlace Unit := do
  unless (← get).arena.contains handle do throw (.invalidHandle handle.word)

/-- Takes the slot for a new node. -/
def takeSlot : InPlace Handle := do
  let (handle, arena) := (← get).arena.takeVacant
  changeArena fun _ => arena
  return handle

/-- Allocates a node: the tests one after the other, then the changes one after the other. -/
def allocate (node : Node) : InPlace Handle := do
  unless node.children.length = node.op.arity do
    throw (.arityMismatch node.op node.op.arity node.children.length)
  forM node.children require
  match (← get).arena.interned[node]? with
  | some existing =>
    changeArena (·.shade existing)
    modify fun store => { store with internHits := store.internHits + 1 }
    return existing
  | none =>
    let arena := (← get).arena
    if arena.capacity ≤ arena.size then throw (.outOfMemory arena.capacity)
    forM node.children fun child => changeArena (·.shade child)
    let handle ← takeSlot
    changeArena fun arena => { arena with interned := arena.interned.insert node handle }
    changeArena fun arena =>
      { arena with table := arena.table.occupy handle.index ⟨node, arena.epoch, 0⟩ }
    changeArena fun arena => { arena with size := arena.size + 1 }
    modify fun store => { store with allocations := store.allocations + 1 }
    return handle

/-- Works out the node of a construction, then allocates it. -/
def build (construction : Construction) : InPlace Handle := do
  match construction.toNode (← get).widthOf with
  | .ok node => allocate node
  | .error error => throw error

/-! ### Running them -/

@[simp] theorem runOn_pure (value : α) : runOn (pure value) store = (.ok value, store) := rfl

@[simp] theorem runOn_throw (error : HeapError) :
    runOn (throw error : InPlace α) store = (.error error, store) := rfl

@[simp] theorem runOn_get : runOn get store = (.ok store, store) := rfl

@[simp] theorem runOn_modify (change : Store → Store) :
    runOn (modify change) store = (.ok (), change store) := rfl

@[simp] theorem runOn_changeArena (change : Arena → Arena) :
    runOn (changeArena change) store = (.ok (), { store with arena := change store.arena }) := rfl

/-- What comes after a step runs on the store that the step leaves, and not at all if the step is
turned down. -/
@[simp] theorem runOn_bind (first : InPlace α) (next : α → InPlace β) :
    runOn (first >>= next) store =
      match runOn first store with
      | (.ok value, after) => runOn (next value) after
      | (.error error, after) => (.error error, after) := by
  show Id.run (StateT.run (ExceptT.run (first >>= next)) store) = _
  rw [ExceptT.run_bind, StateT.run_bind]
  unfold runOn
  cases hfirst : Id.run (StateT.run (ExceptT.run first) store) with
  | mk answer after =>
      have hrun : StateT.run (ExceptT.run first) store = (answer, after) := hfirst
      rw [hrun]
      cases answer <;> rfl

@[simp] theorem runOn_map (change : α → β) (program : InPlace α) :
    runOn (change <$> program) store =
      ((runOn program store).1.map change, (runOn program store).2) := by
  rw [← bind_pure_comp, runOn_bind]
  rcases runOn program store with ⟨_ | _, _⟩ <;> rfl

/-- The children are tested in order, up to the first that is not allocated. -/
theorem runOn_forM_require (children : List Handle) :
    runOn (forM children require) store =
      match children.find? (!store.arena.contains ·) with
      | some child => (.error (.invalidHandle child.word), store)
      | none => (.ok (), store) := by
  induction children with
  | nil => rfl
  | cons child rest ih =>
      cases hcontains : store.arena.contains child with
      | true => simpa [require, hcontains] using ih
      | false => simp [require, hcontains]

theorem runOn_forM_shade (children : List Handle) :
    runOn (forM children fun child => changeArena (·.shade child)) store =
      (.ok (), { store with arena := children.foldl Arena.shade store.arena }) := by
  induction children generalizing store with
  | nil => rfl
  | cons child rest ih => simpa using ih

@[simp] theorem runOn_takeSlot :
    runOn takeSlot store =
      (.ok store.arena.takeVacant.1, { store with arena := store.arena.takeVacant.2 }) := rfl

/-- **The changes made one by one add up to those of `Store.allocate`, and a request that is turned
down has made none.** -/
theorem runOn_allocate (node : Node) (store : Store) :
    runOn (allocate node) store =
      match store.allocate node with
      | .ok (allocation, after) => (.ok allocation.handle, after)
      | .error error => (.error error, store) := by
  unfold allocate Store.allocate Arena.allocate
  -- the cases follow the order in which the program makes its checks
  by_cases harity : node.children.length = node.op.arity
  · rw [if_neg (not_not_intro harity)]
    cases hfind : node.children.find? (!store.arena.contains ·) with
    | some child => simp [harity, runOn_forM_require, hfind]
    | none =>
        cases hinterned : store.arena.interned[node]? with
        | some existing =>
            simp [harity, runOn_forM_require, hfind, hinterned, Allocation.handle, Except.map]
        | none =>
            by_cases hfull : store.arena.capacity ≤ store.arena.size
            · simp [harity, runOn_forM_require, hfind, hinterned, hfull]
            · simp [harity, runOn_forM_require, hfind, hinterned, hfull, runOn_forM_shade,
                Arena.place, Allocation.handle, Except.map]
  · simp [harity]

/-- A construction that is turned down, for its widths or by the store, has changed nothing. -/
theorem runOn_build (heap : Heap) (construction : Construction) :
    runOn (build construction) heap.store =
      match heap.build construction with
      | .ok (handle, after) => (.ok handle, after.store)
      | .error error => (.error error, heap.store) := by
  unfold build Heap.build Heap.allocate
  cases hnode : construction.toNode heap.store.widthOf with
  | error error => simp [hnode]
  | ok node =>
      cases hallocate : heap.store.allocate node with
      | error error => simp [hnode, runOn_allocate, hallocate]
      | ok answer => simp [hnode, runOn_allocate, hallocate, Heap.note]

end InPlace

/-! ### What changes with the nodes -/

namespace Arena

/-- Shading changes the table alone. -/
theorem shade_eq (arena : Arena) (root : Handle) :
    arena.shade root = { arena with table := (arena.shade root).table } := by
  unfold shade
  split <;> rfl

end Arena

/-! ### The five answers -/

namespace Store

variable {store : Store} {node : Node} {capacity issued : Nat}

/-- A node has as many children as its operation takes, and they are all allocated. -/
structure Admits (store : Store) (node : Node) : Prop where
  arity : node.children.length = node.op.arity
  children : ∀ child ∈ node.children, store.arena.contains child = true

/-- No handle names this node. -/
def Lacks (store : Store) (node : Node) : Prop :=
  ∀ handle, store.arena.node? handle ≠ some node

/-- Which answer a store with room for `limit` nodes gives to a request for a node, and what
becomes of the store.  Each answer takes precedence over those after it. -/
structure Answers (store : Store) (limit : Nat) (node : Node) : Prop where
  arityMismatch : store.allocate node =
      .error (.arityMismatch node.op node.op.arity node.children.length) ↔
    node.children.length ≠ node.op.arity
  /-- The error names the first child that is not allocated. -/
  invalidHandle : node.children.length = node.op.arity → ∀ word,
    (store.allocate node = .error (.invalidHandle word) ↔
      ∃ before child after, node.children = before ++ child :: after ∧
        (∀ other ∈ before, store.arena.contains other = true) ∧
        store.arena.contains child = false ∧ word = child.word)
  shared : store.Admits node → ∀ handle,
    ((∃ after, store.allocate node = .ok (.shared handle, after)) ↔
      store.arena.node? handle = some node)
  outOfMemory : store.Admits node → store.Lacks node →
    (store.allocate node = .error (.outOfMemory limit) ↔ limit ≤ store.size)
  fresh : store.Admits node → store.Lacks node → store.size < limit →
    ∃ handle after, store.allocate node = .ok (.fresh handle, after) ∧
      store.arena.contains handle = false ∧
      (∀ other, after.arena.node? other =
        if other = handle then some node else store.arena.node? other) ∧
      after.size = store.size + 1 ∧ after.allocations = store.allocations + 1 ∧
      after.internHits = store.internHits ∧ after.frees = store.frees
  /-- To share a node changes stamps of shading and one count. -/
  shared_changes : ∀ handle after, store.allocate node = .ok (.shared handle, after) →
    ∃ table : Table, table.map Slot.bare = store.arena.table.map Slot.bare ∧
      after = { store with
        arena := { store.arena with table := table }
        internHits := store.internHits + 1 }

/-! ### When each answer is given -/

theorem allocate_of_arity_ne (harity : node.children.length ≠ node.op.arity) :
    store.allocate node =
      .error (.arityMismatch node.op node.op.arity node.children.length) := by
  rw [Store.allocate, Arena.allocate, if_pos harity]

theorem Admits.find? (hadmits : store.Admits node) :
    node.children.find? (!store.arena.contains ·) = none := by
  simpa using hadmits.children

theorem Admits.allocate_of_interned (hadmits : store.Admits node) {handle : Handle}
    (hinterned : store.arena.interned[node]? = some handle) :
    store.allocate node = .ok (.shared handle, { store with
      arena := store.arena.shade handle
      internHits := store.internHits + 1 }) := by
  rw [Store.allocate, Arena.allocate_shared hadmits.arity hadmits.children hinterned]

theorem Lacks.interned (hlacks : store.Lacks node) (hcoherent : store.arena.Coherent issued) :
    store.arena.interned[node]? = none := by
  cases hinterned : store.arena.interned[node]? with
  | none => rfl
  | some handle => exact absurd ((hcoherent.interned_iff node handle).mp hinterned) (hlacks handle)

theorem Admits.allocate_of_full (hadmits : store.Admits node)
    (hnew : store.arena.interned[node]? = none) (hfull : store.arena.capacity ≤ store.size) :
    store.allocate node = .error (.outOfMemory store.arena.capacity) := by
  have hfull : store.arena.capacity ≤ store.arena.size := hfull
  simp only [Store.allocate, Arena.allocate, hadmits.arity, ne_eq, not_true, if_false,
    hadmits.find?, hnew, hfull, if_true]

theorem Admits.allocate_of_room (hadmits : store.Admits node)
    (hnew : store.arena.interned[node]? = none) (hroom : store.size < store.arena.capacity) :
    store.allocate node = .ok (.fresh ((node.children.foldl Arena.shade store.arena).place node).1,
      { store with
        arena := ((node.children.foldl Arena.shade store.arena).place node).2
        allocations := store.allocations + 1 }) := by
  have hroom : ¬ store.arena.capacity ≤ store.arena.size := Nat.not_le.mpr hroom
  simp only [Store.allocate, Arena.allocate, hadmits.arity, ne_eq, not_true, if_false,
    hadmits.find?, hnew, hroom]

/-- With the right number of children, the answer is told by the first child that is missing, by the
handle of the node, and by the room that is left. -/
theorem allocate_of_arity_eq (store : Store) (harity : node.children.length = node.op.arity) :
    (∃ child, node.children.find? (!store.arena.contains ·) = some child ∧
        store.allocate node = .error (.invalidHandle child.word)) ∨
      store.Admits node ∧
        ((∃ handle, store.arena.interned[node]? = some handle ∧
            store.allocate node = .ok (.shared handle, { store with
              arena := store.arena.shade handle
              internHits := store.internHits + 1 })) ∨
          store.arena.interned[node]? = none ∧
            (store.arena.capacity ≤ store.size ∧
                store.allocate node = .error (.outOfMemory store.arena.capacity) ∨
              ∃ handle after, store.size < store.arena.capacity ∧
                store.allocate node = .ok (.fresh handle, after))) := by
  -- one check after the other, each with what has passed before
  cases hfind : node.children.find? (!store.arena.contains ·) with
  | some child => exact .inl ⟨child, rfl, allocate_of_find? harity hfind⟩
  | none =>
      have hadmits : store.Admits node := ⟨harity, by simpa using hfind⟩
      refine .inr ⟨hadmits, ?_⟩
      cases hinterned : store.arena.interned[node]? with
      | some handle => exact .inl ⟨handle, rfl, hadmits.allocate_of_interned hinterned⟩
      | none =>
          refine .inr ⟨rfl, ?_⟩
          rcases Nat.lt_or_ge store.size store.arena.capacity with hroom | hfull
          · exact .inr ⟨_, _, hroom, hadmits.allocate_of_room hinterned hroom⟩
          · exact .inl ⟨hfull, hadmits.allocate_of_full hinterned hfull⟩

theorem arityMismatch_iff : store.allocate node =
      .error (.arityMismatch node.op node.op.arity node.children.length) ↔
    node.children.length ≠ node.op.arity := by
  refine ⟨fun herror harity => ?_, allocate_of_arity_ne⟩
  rcases allocate_of_arity_eq store harity with
    ⟨_, -, h⟩ | ⟨-, ⟨_, -, h⟩ | ⟨-, ⟨-, h⟩ | ⟨_, _, -, h⟩⟩⟩
  all_goals simp [h] at herror

theorem invalidHandle_iff (harity : node.children.length = node.op.arity) (word : UInt64) :
    store.allocate node = .error (.invalidHandle word) ↔
      ∃ before child after, node.children = before ++ child :: after ∧
        (∀ other ∈ before, store.arena.contains other = true) ∧
        store.arena.contains child = false ∧ word = child.word := by
  constructor
  · intro herror
    rcases allocate_of_arity_eq store harity with
      ⟨child, hfind, h⟩ | ⟨-, ⟨_, -, h⟩ | ⟨-, ⟨-, h⟩ | ⟨_, _, -, h⟩⟩⟩
    · obtain ⟨hmissing, before, after, hsplit, hbefore⟩ :=
        List.find?_eq_some_iff_append.mp hfind
      rw [h, Except.error.injEq, HeapError.invalidHandle.injEq] at herror
      exact ⟨before, child, after, hsplit, by simpa using hbefore, by simpa using hmissing,
        herror.symm⟩
    -- the other answers name no handle
    all_goals simp [h] at herror
  · rintro ⟨before, child, after, hsplit, hbefore, hmissing, rfl⟩
    refine allocate_of_find? harity (List.find?_eq_some_iff_append.mpr ?_)
    exact ⟨by simpa using hmissing, before, after, hsplit, by simpa using hbefore⟩

theorem shared_iff (hcoherent : store.arena.Coherent issued) (hadmits : store.Admits node)
    (handle : Handle) : (∃ after, store.allocate node = .ok (.shared handle, after)) ↔
      store.arena.node? handle = some node := by
  rw [← hcoherent.interned_iff]
  refine ⟨?_, fun hinterned => ⟨_, hadmits.allocate_of_interned hinterned⟩⟩
  rintro ⟨after, hshared⟩
  -- whoever is answered with a handle that was there was answered from the interned nodes
  have harena := arena_allocate hshared
  obtain ⟨-, -, ⟨other, hother, hinterned, -⟩ | ⟨-, -, hfresh, -⟩⟩ :=
    Arena.allocate_cases harena
  · rw [Allocation.shared.inj hother]
    exact hinterned
  · cases hfresh

theorem outOfMemory_iff (hcoherent : store.arena.Coherent issued) (hadmits : store.Admits node)
    (hlacks : store.Lacks node) :
    store.allocate node = .error (.outOfMemory store.arena.capacity) ↔
      store.arena.capacity ≤ store.size := by
  refine ⟨fun herror => ?_, hadmits.allocate_of_full (hlacks.interned hcoherent)⟩
  by_contra hroom
  rw [hadmits.allocate_of_room (hlacks.interned hcoherent) (Nat.lt_of_not_le hroom)] at herror
  cases herror

/-- A new node gets a handle that named nothing, and no other handle names anything else. -/
theorem exists_fresh (hcoherent : store.arena.Coherent issued) (hadmits : store.Admits node)
    (hlacks : store.Lacks node) (hroom : store.size < store.arena.capacity) :
    ∃ handle after, store.allocate node = .ok (.fresh handle, after) ∧
      store.arena.contains handle = false ∧
      (∀ other, after.arena.node? other =
        if other = handle then some node else store.arena.node? other) ∧
      after.size = store.size + 1 ∧ after.allocations = store.allocations + 1 ∧
      after.internHits = store.internHits ∧ after.frees = store.frees := by
  have hallocate := hadmits.allocate_of_room (hlacks.interned hcoherent) hroom
  obtain ⟨hnew, hnode⟩ := hcoherent.node?_of_fresh (arena_allocate hallocate)
  refine ⟨_, _, hallocate, hnew, hnode, ?_, rfl, rfl, rfl⟩
  show ((node.children.foldl Arena.shade store.arena).place node).2.size = store.arena.size + 1
  rw [Arena.place_size, Arena.foldl_shade_eq Arena.size Arena.shade_size]

theorem shared_changes {handle : Handle} {after : Store}
    (hshared : store.allocate node = .ok (.shared handle, after)) :
    ∃ table : Table, table.map Slot.bare = store.arena.table.map Slot.bare ∧
      after = { store with
        arena := { store.arena with table := table }
        internHits := store.internHits + 1 } := by
  obtain ⟨harity, hchildren, ⟨other, -, hinterned, -⟩ | ⟨-, -, hfresh, -⟩⟩ :=
    Arena.allocate_cases (arena_allocate hshared)
  · have hadmits : store.Admits node := ⟨harity, hchildren⟩
    rw [hadmits.allocate_of_interned hinterned, Except.ok.injEq, Prod.mk.injEq] at hshared
    obtain ⟨-, rfl⟩ := hshared
    refine ⟨(store.arena.shade other).table, store.arena.map_bare_shade other, ?_⟩
    rw [← store.arena.shade_eq other]
  · cases hfresh

/-- **A coherent store gives each answer where it is due.** -/
theorem answers (hcoherent : store.arena.Coherent issued) (node : Node) :
    store.Answers store.arena.capacity node where
  arityMismatch := arityMismatch_iff
  invalidHandle := invalidHandle_iff
  shared := shared_iff hcoherent
  outOfMemory := outOfMemory_iff hcoherent
  fresh := exists_fresh hcoherent
  shared_changes _ _ := shared_changes

/-! ### Reached stores -/

/-- No call changes how many nodes a store may hold. -/
theorem capacity_perform (store : Store) (call : StoreCall) :
    (store.perform call).arena.capacity = store.arena.capacity := by
  cases call with
  | request request =>
      rw [arena_request]
      cases request with
      | allocate node => exact store.arena.call_capacity (.allocate node)
      | shade handle =>
          rw [Arena.apply_shade]
          split
          · exact store.arena.shade_capacity handle
          · rfl
  | release handle =>
      simp only [perform, release, Arena.release]
      cases store.arena.table.entryOf? handle <;> rfl
  | reclaim epoch isLive index =>
      rw [arena_reclaim]
      exact store.arena.call_capacity (.reclaim epoch isLive index)
  | beginCycle => rfl
  | endCycle => rfl
  | clear => rfl

theorem Reached.capacity_eq (hreached : store.Reached capacity) :
    store.arena.capacity = min capacity Handle.indexBound := by
  obtain ⟨calls, rfl⟩ := hreached
  suffices hkept : ∀ store : Store,
      (store.performAll calls).arena.capacity = store.arena.capacity from hkept (.empty capacity)
  induction calls with
  | nil => exact fun _ => rfl
  | cons call rest ih => exact fun store => (ih _).trans (store.capacity_perform call)

/-- **The outcome of a request for a node**, in every store that calls can reach, within a cycle or
outside of one: which of the five answers is given, with what precedence, and what becomes of the
store.  And made in place, change by change, a request that is turned down, whether by the store or
on the way to it by a construction, leaves the whole store and its counts as they were. -/
theorem allocation_outcomes (hreached : store.Reached capacity) :
    (∀ op children width,
      store.Answers (min capacity Handle.indexBound) ⟨op, children, width⟩) ∧
      (∀ node, (InPlace.allocate node).runOn store =
        match store.allocate node with
        | .ok (allocation, after) => (.ok allocation.handle, after)
        | .error error => (.error error, store)) ∧
      ∀ heap : Heap, heap.store = store → ∀ construction,
        (InPlace.build construction).runOn store =
          match heap.build construction with
          | .ok (handle, after) => (.ok handle, after.store)
          | .error error => (.error error, store) := by
  obtain ⟨_, hcoherent⟩ := hreached.coherent
  refine ⟨fun op children width => ?_, fun node => InPlace.runOn_allocate node store, ?_⟩
  · rw [← hreached.capacity_eq]
    exact answers hcoherent _
  · rintro heap rfl construction
    exact InPlace.runOn_build heap construction

/-- A store with room for one node, which has it, in the middle of a cycle. -/
def fullInCycle : Store :=
  (Store.empty 1).performAll [.request (.allocate ⟨.input 0, [], 8⟩), .beginCycle]

/-- The full store shares the node that it has, and turns down any other; an extract beyond the
width of that node is turned down on the way, and leaves the store as it was. -/
theorem fullInCycle_outcomes :
    fullInCycle.Reached 1 ∧
      (∃ after, fullInCycle.allocate ⟨.input 0, [], 8⟩ = .ok (.shared ⟨0, 1⟩, after)) ∧
      fullInCycle.allocate ⟨.input 1, [], 8⟩ = .error (.outOfMemory 1) ∧
      (InPlace.build (.extract ⟨0, 1⟩ 8 0)).runOn fullInCycle =
        (.error (.badExtract 8 0 8), fullInCycle) := by
  have hreached : fullInCycle.Reached 1 := ⟨_, rfl⟩
  obtain ⟨hanswers, -, hbuild⟩ := allocation_outcomes hreached
  have hbyte : fullInCycle.arena.node? ⟨0, 1⟩ = some ⟨.input 0, [], 8⟩ := by cbv
  have hlacks : fullInCycle.Lacks ⟨.input 1, [], 8⟩ := by
    intro handle hnode
    obtain ⟨_, hcoherent⟩ := hreached.coherent
    have hinterned := (hcoherent.interned_iff _ handle).mpr hnode
    have hnone : fullInCycle.arena.interned[(⟨.input 1, [], 8⟩ : Node)]? = none := by cbv
    rw [hnone] at hinterned
    cases hinterned
  have hfull : min 1 Handle.indexBound ≤ fullInCycle.size := by
    have hsize : fullInCycle.size = 1 := by cbv
    exact hsize ▸ Nat.min_le_left 1 Handle.indexBound
  refine ⟨hreached, ?_, ?_, ?_⟩
  · exact ((hanswers (.input 0) [] 8).shared ⟨rfl, by simp⟩ ⟨0, 1⟩).mpr hbyte
  · exact ((hanswers (.input 1) [] 8).outOfMemory ⟨rfl, by simp⟩ hlacks).mpr hfull
  · have hrefused : ({ Heap.empty .default with store := fullInCycle } : Heap).build
        (.extract ⟨0, 1⟩ 8 0) = .error (.badExtract 8 0 8) := by cbv
    rw [hbuild { Heap.empty .default with store := fullInCycle } rfl, hrefused]

end Store

end ExprHeap
