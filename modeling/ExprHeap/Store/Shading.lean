import ExprHeap.Store.Table

/-!
# Shading

Shading keeps a node and everything below it alive through the current epoch.  The traversal
keeps a stack of handles: a handle that names no entry is dropped, an entry that was shaded or
born in this epoch is passed over, because what is below it has been seen to already, and any
other entry is stamped and its children go onto the stack.

It ends on every table, whatever the children of its entries name: each step stamps an entry
that awaited shading or shortens the stack.
-/

namespace ExprHeap

/-- Whether an entry is kept through this epoch on its own account. -/
def Entry.isKept (entry : Entry) (epoch : Nat) : Bool :=
  entry.shaded == epoch || entry.born == epoch

/-- Whether a slot holds an entry that nothing has kept in this epoch yet. -/
def Slot.awaitsShading (slot : Slot) (epoch : Nat) : Bool :=
  match slot.entry with
  | some entry => !entry.isKept epoch
  | none => false

namespace Table

/-- The number of entries that nothing has kept in this epoch yet. -/
def awaitingShading (table : Table) (epoch : Nat) : Nat :=
  table.countP (·.awaitsShading epoch)

/-- An entry that a handle names stands in the slot of its index. -/
theorem entryOf?_eq_some_iff {table : Table} {handle : Handle} {entry : Entry} :
    table.entryOf? handle = some entry ↔ table[handle.index.toNat]? =
      some { generation := handle.generation, entry := some entry } := by
  unfold entryOf?
  cases hslot : table[handle.index.toNat]? with
  | none => simp
  | some slot =>
    obtain ⟨generation, content⟩ := slot
    by_cases hgeneration : generation = handle.generation <;> simp [hgeneration]

private theorem modify_eq_set (table : Table) (change : Slot → Slot) {index : Nat}
    (hindex : index < table.size) :
    table.modify index change = table.set index (change table[index]) hindex := by
  apply Array.ext
  · simp
  · intro position hmodified hset
    simp [Array.getElem_modify, Array.getElem_set]
    split <;> simp_all

/-- Stamping an entry that awaited shading leaves one fewer of them. -/
theorem awaitingShading_stamp_lt {table : Table} {handle : Handle} {entry : Entry} {epoch : Nat}
    (hentry : table.entryOf? handle = some entry) (hawaits : entry.isKept epoch = false) :
    (table.stamp handle.index epoch).awaitingShading epoch < table.awaitingShading epoch := by
  rw [entryOf?_eq_some_iff] at hentry
  obtain ⟨hindex, hslot⟩ := Array.getElem?_eq_some_iff.mp hentry
  have hbefore : (table[handle.index.toNat]).awaitsShading epoch = true := by
    simp [hslot, Slot.awaitsShading, hawaits]
  have hafter : ((table[handle.index.toNat]).stamped epoch).awaitsShading epoch = false := by
    simp [hslot, Slot.stamped, Slot.awaitsShading, Entry.isKept]
  have hpositive : 0 < table.awaitingShading epoch :=
    Array.countP_pos_iff.mpr ⟨_, Array.getElem_mem hindex, hbefore⟩
  unfold awaitingShading stamp at *
  rw [modify_eq_set _ _ hindex, Array.countP_set hindex]
  rw [if_pos hbefore, if_neg (by simp [hafter])]
  omega

set_option linter.unusedVariables false in
/-- Shades everything on the stack and everything below it. -/
def shadeStack (epoch : Nat) (table : Table) : List Handle → Table
  | [] => table
  | handle :: rest =>
    match hentry : table.entryOf? handle with
    | none => shadeStack epoch table rest
    | some entry =>
      if hkept : entry.isKept epoch then shadeStack epoch table rest
      else shadeStack epoch (table.stamp handle.index epoch) (entry.node.children ++ rest)
termination_by stack => (table.awaitingShading epoch, stack.length)
decreasing_by
  · exact Prod.Lex.right _ (by simp)
  · exact Prod.Lex.right _ (by simp)
  · exact Prod.Lex.left _ _ (awaitingShading_stamp_lt hentry (by simpa using hkept))

end Table

end ExprHeap
