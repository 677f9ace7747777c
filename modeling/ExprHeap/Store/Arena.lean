import ExprHeap.Error
import ExprHeap.Store.Shading
import Std.Data.HashMap

/-!
# The arena

The arena owns the nodes.  Beside the slot table it keeps the stack of vacant slots, from which
new nodes take their places, the map from each node to its handle, by which a node that exists
already is shared instead of being built again, and a count of the nodes.

A *cycle* is one collection.  While a cycle is active its epoch is current, and every node that
is allocated, shared or given as a child is kept through it: new nodes by the epoch they are
born in, the others by shading.  `Arena.reclaim` vacates a slot unless its node is kept.

* `Arena.allocate` answers with the handle of the equal node if there is one, and otherwise
  with the handle of a new node.
* `Arena.release` takes one node away; `Arena.clear` takes all of them.
-/

namespace ExprHeap

/-- The nodes with all that is kept about them. -/
structure Arena where
  table : Table
  /-- The vacant slots, the next one to be taken first. -/
  vacant : List UInt32
  /-- The handle of each node. -/
  interned : Std.HashMap Node Handle
  /-- The number of nodes. -/
  size : Nat
  /-- The largest number of nodes. -/
  capacity : Nat
  /-- The number of cycles begun so far. -/
  epoch : Nat
  cycleActive : Bool

/-- What an allocation answers with: a node that was there already or a new one. -/
inductive Allocation where
  | shared (handle : Handle)
  | fresh (handle : Handle)
  deriving DecidableEq

namespace Allocation

/-- The handle of the node. -/
def handle : Allocation → Handle
  | .shared handle => handle
  | .fresh handle => handle

end Allocation

namespace Arena

/-- An arena without nodes.  No more nodes than there are indices can be held. -/
def empty (capacity : Nat) : Arena where
  table := #[]
  vacant := []
  interned := ∅
  size := 0
  capacity := min capacity Handle.indexBound
  epoch := 0
  cycleActive := false

/-! ## Looking up -/

/-- The node that a handle names. -/
def node? (arena : Arena) (handle : Handle) : Option Node :=
  (arena.table.entryOf? handle).map Entry.node

/-- Whether a handle names a node. -/
def contains (arena : Arena) (handle : Handle) : Bool :=
  (arena.table.entryOf? handle).isSome

/-- The handle that a word stands for, if it names a node. -/
def resolve? (arena : Arena) (word : UInt64) : Option Handle :=
  (Handle.ofWord? word).filter arena.contains

/-! ## Cycles -/

/-- Begins a cycle. -/
def beginCycle (arena : Arena) : Arena :=
  { arena with epoch := arena.epoch + 1, cycleActive := true }

/-- Ends a cycle. -/
def endCycle (arena : Arena) : Arena :=
  { arena with cycleActive := false }

/-- Keeps a node and everything below it through the active cycle; without one there is nothing
to do. -/
def shade (arena : Arena) (root : Handle) : Arena :=
  if arena.cycleActive then
    { arena with table := arena.table.shadeStack arena.epoch [root] }
  else arena

/-! ## Allocating -/

/-- Takes the next vacant slot, or a new slot at the end of the table if none is vacant. -/
def takeVacant (arena : Arena) : Handle × Arena :=
  match arena.vacant with
  | index :: rest =>
    ({ index := index, generation := arena.table.generation index }, { arena with vacant := rest })
  | [] =>
    let index := UInt32.ofNat arena.table.size
    let table : Table := arena.table.push .fresh
    ({ index := index, generation := table.generation index }, { arena with table := table })

/-- Puts a new node into a vacant slot. -/
def place (arena : Arena) (node : Node) : Handle × Arena :=
  let (handle, arena) := arena.takeVacant
  let entry := { node := node, born := arena.epoch, shaded := 0 }
  (handle, { arena with
    table := arena.table.occupy handle.index entry
    interned := arena.interned.insert node handle
    size := arena.size + 1 })

/-- Allocates a node.  Its operation must have that many children, and each child must be
allocated.  An equal node is shared and shaded even when the arena is full; a new node finds
place only below the capacity, and its children are shaded. -/
def allocate (arena : Arena) (node : Node) : Except HeapError (Allocation × Arena) :=
  if node.children.length ≠ node.op.arity then
    .error (.arityMismatch node.op node.op.arity node.children.length)
  else match node.children.find? (!arena.contains ·) with
    | some child => .error (.invalidHandle child.word)
    | none => match arena.interned[node]? with
      | some handle => .ok (.shared handle, arena.shade handle)
      | none =>
        if arena.capacity ≤ arena.size then .error (.outOfMemory arena.capacity)
        else
          let (handle, arena) := (node.children.foldl shade arena).place node
          .ok (.fresh handle, arena)

/-! ## Taking away -/

/-- Takes the node away that stands in the slot of a handle.  The slot goes on top of the vacant
ones. -/
def remove (arena : Arena) (handle : Handle) (node : Node) : Arena :=
  { arena with
    table := arena.table.vacate handle.index
    vacant := handle.index :: arena.vacant
    interned := arena.interned.erase node
    size := arena.size - 1 }

/-- Takes the node away that a handle names. -/
def release (arena : Arena) (handle : Handle) : Except HeapError (Node × Arena) :=
  match arena.table.entryOf? handle with
  | some entry => .ok (entry.node, arena.remove handle entry.node)
  | none => .error (.invalidHandle handle.word)

/-- Takes the node in a slot away unless something keeps it: it was born in `epoch` or later,
it was shaded in `epoch`, or `isLive` holds of it.  Answers with the handle of the node if it
was taken away. -/
def reclaim (arena : Arena) (epoch : Nat) (isLive : Handle → Bool) (index : Nat) :
    Option Handle × Arena :=
  match arena.table[index]? with
  | some { generation := generation, entry := some entry } =>
    let handle : Handle := { index := UInt32.ofNat index, generation := generation }
    if epoch ≤ entry.born || entry.shaded == epoch || isLive handle then (none, arena)
    else (some handle, arena.remove handle entry.node)
  | _ => (none, arena)

/-- Takes all nodes away and answers how many there were.  The vacant slots are stacked anew,
the lowest index first. -/
def clear (arena : Arena) : Nat × Arena :=
  (arena.size, { arena with
    table := arena.table.map Slot.vacated
    vacant := (List.range (UInt32.ofNat arena.table.size).toNat).map UInt32.ofNat
    interned := ∅
    size := 0 })

end Arena

end ExprHeap
