import ExprHeap.Expr.Node

/-!
# The slot table

Nodes live in numbered slots.  A slot keeps a generation and is either vacant or occupied by an
entry; an entry is a node together with two stamps, the epoch in which it was allocated and the
last epoch in which it was shaded.  A handle names the entry of its slot only while the
generations agree, so a handle to a node that is gone never names the node that came after it.
-/

namespace ExprHeap

/-- A node with its stamps. -/
structure Entry where
  node : Node
  /-- The epoch that was current when the node was allocated. -/
  born : Nat
  /-- The last epoch in which the node was shaded, zero if it never was. -/
  shaded : Nat
  deriving DecidableEq

/-- One place for a node. -/
structure Slot where
  generation : UInt32
  entry : Option Entry
  deriving DecidableEq

namespace Slot

/-- A slot that has never been occupied. -/
def fresh : Slot := { generation := 1, entry := none }

/-- Vacates an occupied slot, which takes its next generation; a vacant slot stays as it is. -/
def vacated (slot : Slot) : Slot :=
  if slot.entry.isSome then { generation := nextGeneration slot.generation, entry := none }
  else slot

/-- Puts an entry into a slot. -/
def occupied (slot : Slot) (entry : Entry) : Slot :=
  { slot with entry := some entry }

/-- Marks the entry of a slot as shaded in an epoch. -/
def stamped (slot : Slot) (epoch : Nat) : Slot :=
  { slot with entry := slot.entry.map fun entry => { entry with shaded := epoch } }

end Slot

/-- The slots, by index. -/
abbrev Table := Array Slot

namespace Table

/-- The entry that a handle names. -/
def entryOf? (table : Table) (handle : Handle) : Option Entry :=
  match table[handle.index.toNat]? with
  | some slot => if slot.generation = handle.generation then slot.entry else none
  | none => none

/-- The generation of a slot; slots that are not there yet will start in generation one. -/
def generation (table : Table) (index : UInt32) : UInt32 :=
  match table[index.toNat]? with
  | some slot => slot.generation
  | none => 1

/-- Puts an entry into the slot with this index. -/
def occupy (table : Table) (index : UInt32) (entry : Entry) : Table :=
  table.modify index.toNat (·.occupied entry)

/-- Vacates the slot with this index. -/
def vacate (table : Table) (index : UInt32) : Table :=
  table.modify index.toNat Slot.vacated

/-- Marks the entry in the slot with this index as shaded in an epoch. -/
def stamp (table : Table) (index : UInt32) (epoch : Nat) : Table :=
  table.modify index.toNat (·.stamped epoch)

end Table

end ExprHeap
