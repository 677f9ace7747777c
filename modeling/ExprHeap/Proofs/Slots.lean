import ExprHeap.Store.Arena

/-!
# What the table operations do to the entries

Every operation on the slot table changes one slot.  The slots are seen from
outside through `Table.entryOf?`, the entry that a handle names; here each
operation gets one equation for `entryOf?`, and later proofs about entries use
these and unfold no operation again.

Two handles that name entries in the same slot are the same handle
(`entryOf?_index_injective`): a slot has one generation at a time.
-/

namespace ExprHeap

/-! ## Slots -/

namespace Slot

@[simp] theorem entry_fresh : Slot.fresh.entry = none := rfl

@[simp] theorem generation_fresh : Slot.fresh.generation = 1 := rfl

@[simp] theorem entry_occupied (slot : Slot) (entry : Entry) :
    (slot.occupied entry).entry = some entry := rfl

@[simp] theorem generation_occupied (slot : Slot) (entry : Entry) :
    (slot.occupied entry).generation = slot.generation := rfl

@[simp] theorem generation_stamped (slot : Slot) (epoch : Nat) :
    (slot.stamped epoch).generation = slot.generation := rfl

@[simp] theorem entry_stamped (slot : Slot) (epoch : Nat) :
    (slot.stamped epoch).entry = slot.entry.map fun entry => { entry with shaded := epoch } := rfl

@[simp] theorem entry_vacated (slot : Slot) : slot.vacated.entry = none := by
  unfold vacated
  split
  · rfl
  · simp_all

end Slot

/-- No generation is followed by zero. -/
theorem nextGeneration_ne_zero (generation : UInt32) : nextGeneration generation ≠ 0 := by
  unfold nextGeneration
  split
  · decide
  · assumption

theorem Slot.generation_vacated_ne_zero {slot : Slot} (hslot : slot.generation ≠ 0) :
    slot.vacated.generation ≠ 0 := by
  unfold vacated
  split
  · exact nextGeneration_ne_zero _
  · exact hslot

/-! ## Entries -/

namespace Table

variable {table : Table}

/-- The entry that a handle names, read off its slot. -/
theorem entryOf?_of_slot {slot : Slot} {handle : Handle}
    (hslot : table[handle.index.toNat]? = some slot) :
    table.entryOf? handle = if slot.generation = handle.generation then slot.entry else none := by
  simp only [entryOf?, hslot]

theorem entryOf?_of_no_slot {handle : Handle} (hslot : table[handle.index.toNat]? = none) :
    table.entryOf? handle = none := by
  simp only [entryOf?, hslot]

/-- Two handles that name entries in the same slot are equal. -/
theorem entryOf?_index_injective {first second : Handle} {one other : Entry}
    (hfirst : table.entryOf? first = some one) (hsecond : table.entryOf? second = some other)
    (hindex : first.index = second.index) : first = second := by
  rw [entryOf?_eq_some_iff] at hfirst hsecond
  rw [hindex, hsecond] at hfirst
  simp only [Option.some.injEq, Slot.mk.injEq] at hfirst
  exact Handle.ext_toNat (congrArg UInt32.toNat hindex) hfirst.1.symm

theorem getElem?_occupy (table : Table) (index : UInt32) (entry : Entry) (position : Nat) :
    (table.occupy index entry)[position]? =
      if index.toNat = position then table[position]?.map (·.occupied entry)
      else table[position]? :=
  Array.getElem?_modify

theorem getElem?_vacate (table : Table) (index : UInt32) (position : Nat) :
    (table.vacate index)[position]? =
      if index.toNat = position then table[position]?.map Slot.vacated else table[position]? :=
  Array.getElem?_modify

theorem getElem?_stamp (table : Table) (index : UInt32) (epoch position : Nat) :
    (table.stamp index epoch)[position]? =
      if index.toNat = position then table[position]?.map (·.stamped epoch)
      else table[position]? :=
  Array.getElem?_modify

/-- Changing one slot leaves what handles to other slots name. -/
theorem entryOf?_modify_other (table : Table) (change : Slot → Slot) {index : UInt32}
    {handle : Handle} (hindex : handle.index ≠ index) :
    Table.entryOf? (table.modify index.toNat change) handle = table.entryOf? handle := by
  have hne : index.toNat ≠ handle.index.toNat := fun h => hindex (UInt32.toNat_inj.mp h.symm)
  have hslot : (table.modify index.toNat change)[handle.index.toNat]? =
      table[handle.index.toNat]? := by
    rw [Array.getElem?_modify, if_neg hne]
  rw [entryOf?, entryOf?, hslot]

/-- What a handle names in the slot that was changed. -/
theorem entryOf?_modify_same (table : Table) (change : Slot → Slot) (handle : Handle) :
    Table.entryOf? (table.modify handle.index.toNat change) handle =
      match table[handle.index.toNat]? with
      | some slot =>
        if (change slot).generation = handle.generation then (change slot).entry else none
      | none => none := by
  have hslot : (table.modify handle.index.toNat change)[handle.index.toNat]? =
      table[handle.index.toNat]?.map change := by
    rw [Array.getElem?_modify, if_pos rfl]
  rw [entryOf?, hslot]
  cases table[handle.index.toNat]? <;> rfl

theorem entryOf?_stamp (table : Table) (index : UInt32) (epoch : Nat) (handle : Handle) :
    (table.stamp index epoch).entryOf? handle =
      if handle.index = index then
        (table.entryOf? handle).map fun entry => { entry with shaded := epoch }
      else table.entryOf? handle := by
  split
  · rename_i hindex
    subst hindex
    rw [stamp, entryOf?_modify_same, entryOf?]
    cases table[handle.index.toNat]? with
    | none => rfl
    | some slot =>
        simp only [Slot.generation_stamped, Slot.entry_stamped]
        split <;> simp_all
  · rename_i hindex
    exact entryOf?_modify_other _ _ hindex

theorem entryOf?_vacate (table : Table) (index : UInt32) (handle : Handle) :
    (table.vacate index).entryOf? handle =
      if handle.index = index then none else table.entryOf? handle := by
  split
  · rename_i hindex
    subst hindex
    rw [vacate, entryOf?_modify_same]
    cases table[handle.index.toNat]? with
    | none => rfl
    | some slot => simp
  · rename_i hindex
    exact entryOf?_modify_other _ _ hindex

/-- An entry put into a slot is named by the index and the generation of the slot. -/
theorem entryOf?_occupy {index : UInt32} {slot : Slot} (hslot : table[index.toNat]? = some slot)
    (entry : Entry) (handle : Handle) :
    (table.occupy index entry).entryOf? handle =
      if handle.index = index then
        if slot.generation = handle.generation then some entry else none
      else table.entryOf? handle := by
  split
  · rename_i hindex
    subst hindex
    rw [occupy, entryOf?_modify_same, hslot]
    rfl
  · rename_i hindex
    exact entryOf?_modify_other _ _ hindex

/-- A new slot at the end of the table holds no entry. -/
theorem entryOf?_push_fresh (table : Table) (handle : Handle) :
    Table.entryOf? (table.push .fresh) handle = table.entryOf? handle := by
  have hpush : (table.push Slot.fresh)[handle.index.toNat]? =
      if handle.index.toNat = table.size then some Slot.fresh
      else table[handle.index.toNat]? := Array.getElem?_push
  by_cases hend : handle.index.toNat = table.size
  · rw [if_pos hend] at hpush
    rw [entryOf?_of_slot hpush, entryOf?_of_no_slot (by simp [hend]), Slot.entry_fresh, ite_self]
  · rw [if_neg hend] at hpush
    rw [entryOf?, entryOf?, hpush]

end Table

end ExprHeap
