import ExprHeap.Store.Arena

/-!
# The store

The store is the arena together with three running totals: nodes allocated, requests answered
with a node that was there already, and nodes taken away.
-/

namespace ExprHeap

/-- The arena with its running totals. -/
structure Store where
  arena : Arena
  allocations : Nat
  internHits : Nat
  frees : Nat

namespace Store

/-- A store without nodes. -/
def empty (capacity : Nat) : Store :=
  { arena := .empty capacity, allocations := 0, internHits := 0, frees := 0 }

/-- The number of nodes. -/
def size (store : Store) : Nat := store.arena.size

/-- Whether there are no nodes. -/
def isEmpty (store : Store) : Bool := store.size == 0

/-- The node that a handle names. -/
def node (store : Store) (handle : Handle) : Except HeapError Node :=
  match store.arena.node? handle with
  | some node => .ok node
  | none => .error (.invalidHandle handle.word)

/-- The width of the node that a handle names. -/
def widthOf (store : Store) (handle : Handle) : Except HeapError UInt32 :=
  (store.node handle).map Node.width

/-- The children of the node that a handle names. -/
def childrenOf (store : Store) (handle : Handle) : Except HeapError (List Handle) :=
  (store.node handle).map Node.children

/-- Allocates a node and counts it. -/
def allocate (store : Store) (node : Node) : Except HeapError (Allocation × Store) :=
  match store.arena.allocate node with
  | .ok (.shared handle, arena) =>
    .ok (.shared handle, { store with arena := arena, internHits := store.internHits + 1 })
  | .ok (.fresh handle, arena) =>
    .ok (.fresh handle, { store with arena := arena, allocations := store.allocations + 1 })
  | .error error => .error error

/-- Keeps a node and everything below it through the active cycle. -/
def shade (store : Store) (handle : Handle) : Except HeapError Store :=
  if store.arena.contains handle then .ok { store with arena := store.arena.shade handle }
  else .error (.invalidHandle handle.word)

/-- Takes one node away and counts it. -/
def release (store : Store) (handle : Handle) : Except HeapError (Node × Store) :=
  match store.arena.release handle with
  | .ok (node, arena) => .ok (node, { store with arena := arena, frees := store.frees + 1 })
  | .error error => .error error

/-- Takes all nodes away, counts them, and answers how many there were. -/
def clear (store : Store) : Nat × Store :=
  let (discarded, arena) := store.arena.clear
  (discarded, { store with arena := arena, frees := store.frees + discarded })

end Store

end ExprHeap
