import ExprHeap.Proofs.Descent
import ExprHeap.Proofs.Shading
import Mathlib.Data.List.Nodup
import Mathlib.Data.List.Perm.Subperm

/-!
# Coherent arenas

The arena keeps four redundant records of its nodes: the slots, the stack of
vacant slots, the map from nodes to handles, and the count.
`Arena.Coherent arena issued` says that they agree, where the first `issued`
slots are those that are in use or on the stack.  As long as the arena has not
been cleared these are all slots; clearing a table of `2 ^ 32` slots leaves the
stack empty and starts again with the first slot, so that `issued` can fall
behind the size of the table, by a multiple of `2 ^ 32`.

Every operation keeps an arena coherent, whatever its arguments.  The
operations that change a slot do so through three of the lemmas here:

* `Coherent.grow`: a new slot goes onto the stack;
* `Coherent.fill`: the slot on top of the stack takes a node;
* `Coherent.remove`: a slot is vacated and goes onto the stack.
-/

namespace ExprHeap

namespace Arena

/-- The slots, the vacant slots, the map of nodes and the count agree. -/
structure Coherent (arena : Arena) (issued : Nat) : Prop where
  issued_le_size : issued ≤ arena.table.size
  issued_le_capacity : issued ≤ arena.capacity
  capacity_le : arena.capacity ≤ Handle.indexBound
  size_mod : arena.table.size % Handle.indexBound = issued % Handle.indexBound
  generation_ne_zero : ∀ (index : Nat) (slot : Slot), arena.table[index]? = some slot →
    slot.generation ≠ 0
  vacant_from : ∀ (index : Nat) (slot : Slot), issued ≤ index →
    arena.table[index]? = some slot → slot.entry = none
  vacant_nodup : arena.vacant.Nodup
  mem_vacant : ∀ index : UInt32, index ∈ arena.vacant ↔
    index.toNat < issued ∧ ∃ slot, arena.table[index.toNat]? = some slot ∧ slot.entry = none
  size_add_vacant : arena.size + arena.vacant.length = issued
  interned_iff : ∀ (node : Node) (handle : Handle),
    arena.interned[node]? = some handle ↔ arena.node? handle = some node
  stamps_le : ∀ (handle : Handle) (entry : Entry), arena.table.entryOf? handle = some entry →
    entry.born ≤ arena.epoch ∧ entry.shaded ≤ arena.epoch

variable {arena : Arena} {issued : Nat}

theorem coherent_empty (capacity : Nat) : (Arena.empty capacity).Coherent 0 where
  issued_le_size := Nat.zero_le _
  issued_le_capacity := Nat.zero_le _
  capacity_le := Nat.min_le_right _ _
  size_mod := rfl
  generation_ne_zero := by simp [empty]
  vacant_from := by simp [empty]
  vacant_nodup := List.nodup_nil
  mem_vacant := by simp [empty]
  size_add_vacant := rfl
  interned_iff := by simp [empty, node?, Table.entryOf?]
  stamps_le := by simp [empty, Table.entryOf?]

/-! ## What coherence says about handles -/

namespace Coherent

theorem issued_le (hcoherent : arena.Coherent issued) : issued ≤ Handle.indexBound :=
  Nat.le_trans hcoherent.issued_le_capacity hcoherent.capacity_le

/-- The slot of an allocated handle has been issued. -/
theorem index_lt (hcoherent : arena.Coherent issued) {handle : Handle} {entry : Entry}
    (hentry : arena.table.entryOf? handle = some entry) : handle.index.toNat < issued := by
  by_contra hge
  have hslot := Table.entryOf?_eq_some_iff.mp hentry
  have hnone := hcoherent.vacant_from _ _ (Nat.le_of_not_lt hge) hslot
  simp at hnone

theorem handle_generation_ne_zero (hcoherent : arena.Coherent issued) {handle : Handle}
    {entry : Entry} (hentry : arena.table.entryOf? handle = some entry) : handle.generation ≠ 0 :=
  hcoherent.generation_ne_zero _ _ (Table.entryOf?_eq_some_iff.mp hentry)

theorem not_mem_vacant (hcoherent : arena.Coherent issued) {handle : Handle} {entry : Entry}
    (hentry : arena.table.entryOf? handle = some entry) : handle.index ∉ arena.vacant := by
  intro hvacant
  obtain ⟨-, slot, hslot, hnone⟩ := (hcoherent.mem_vacant _).mp hvacant
  rw [Table.entryOf?_eq_some_iff.mp hentry, Option.some.injEq] at hslot
  simp [← hslot] at hnone

/-- Two handles of the same node are equal. -/
theorem node?_injective (hcoherent : arena.Coherent issued) {first second : Handle} {node : Node}
    (hfirst : arena.node? first = some node) (hsecond : arena.node? second = some node) :
    first = second := by
  rw [← hcoherent.interned_iff] at hfirst hsecond
  exact Option.some.inj (hfirst.symm.trans hsecond)

/-- Where there is a node, it is counted. -/
theorem size_pos (hcoherent : arena.Coherent issued) {handle : Handle} {entry : Entry}
    (hentry : arena.table.entryOf? handle = some entry) : 0 < arena.size := by
  -- the vacant slots and the slot of the node are different slots among those issued
  have hnodup : ((handle.index :: arena.vacant).map UInt32.toNat).Nodup :=
    List.Nodup.map (fun _ _ h => UInt32.toNat_inj.mp h)
      (List.nodup_cons.mpr ⟨hcoherent.not_mem_vacant hentry, hcoherent.vacant_nodup⟩)
  have hsubset : (handle.index :: arena.vacant).map UInt32.toNat ⊆ List.range issued := by
    intro index hindex
    obtain ⟨slot, hslot, rfl⟩ := List.mem_map.mp hindex
    rcases List.mem_cons.mp hslot with rfl | hvacant
    · exact List.mem_range.mpr (hcoherent.index_lt hentry)
    · exact List.mem_range.mpr ((hcoherent.mem_vacant _).mp hvacant).1
  have hlength := (hnodup.subperm hsubset).length_le
  simp only [List.length_map, List.length_cons, List.length_range] at hlength
  have := hcoherent.size_add_vacant
  omega

/-! ## Cycles -/

theorem beginCycle (hcoherent : arena.Coherent issued) : arena.beginCycle.Coherent issued where
  __ := hcoherent
  interned_iff := hcoherent.interned_iff
  stamps_le handle entry hentry := by
    obtain ⟨hborn, hshaded⟩ := hcoherent.stamps_le handle entry hentry
    exact ⟨Nat.le_succ_of_le hborn, Nat.le_succ_of_le hshaded⟩

theorem endCycle (hcoherent : arena.Coherent issued) : arena.endCycle.Coherent issued where
  __ := hcoherent
  interned_iff := hcoherent.interned_iff

/-! ## Shading -/

end Coherent

@[simp] theorem shade_epoch (arena : Arena) (root : Handle) :
    (arena.shade root).epoch = arena.epoch := by
  unfold shade
  split <;> rfl

@[simp] theorem shade_cycleActive (arena : Arena) (root : Handle) :
    (arena.shade root).cycleActive = arena.cycleActive := by
  unfold shade
  split <;> rfl

@[simp] theorem shade_interned (arena : Arena) (root : Handle) :
    (arena.shade root).interned = arena.interned := by
  unfold shade
  split <;> rfl

@[simp] theorem shade_size (arena : Arena) (root : Handle) :
    (arena.shade root).size = arena.size := by
  unfold shade
  split <;> rfl

@[simp] theorem shade_capacity (arena : Arena) (root : Handle) :
    (arena.shade root).capacity = arena.capacity := by
  unfold shade
  split <;> rfl

@[simp] theorem shade_vacant (arena : Arena) (root : Handle) :
    (arena.shade root).vacant = arena.vacant := by
  unfold shade
  split <;> rfl

theorem map_bare_shade (arena : Arena) (root : Handle) :
    (arena.shade root).table.map Slot.bare = arena.table.map Slot.bare := by
  unfold shade
  split
  · exact Table.map_bare_shadeStack _ _ _
  · rfl

@[simp] theorem size_table_shade (arena : Arena) (root : Handle) :
    (arena.shade root).table.size = arena.table.size := by
  simpa using congrArg Array.size (map_bare_shade arena root)

open Classical in
/-- What shading does to the entries. -/
theorem entryOf?_shade (arena : Arena) (root handle : Handle) :
    (arena.shade root).table.entryOf? handle =
      if arena.cycleActive = true ∧ arena.table.UnkeptPath arena.epoch root handle then
        (arena.table.entryOf? handle).map fun entry => { entry with shaded := arena.epoch }
      else arena.table.entryOf? handle := by
  unfold shade
  by_cases hactive : arena.cycleActive = true
  · simp only [hactive, if_true, true_and]
    rw [Table.entryOf?_shadeStack]
    simp
  · simp [hactive]

@[simp] theorem node?_shade (arena : Arena) (root handle : Handle) :
    (arena.shade root).node? handle = arena.node? handle := by
  unfold node?
  rw [entryOf?_shade]
  split
  · rw [Option.map_map]
    rfl
  · rfl

@[simp] theorem contains_shade (arena : Arena) (root handle : Handle) :
    (arena.shade root).contains handle = arena.contains handle := by
  rw [Bool.eq_iff_iff, contains_iff, contains_iff, node?_shade]

/-- A slot of the shaded arena was there before, but for its stamp. -/
theorem exists_slot_of_shade {root : Handle} {index : Nat} {slot : Slot}
    (hslot : (arena.shade root).table[index]? = some slot) :
    ∃ old, arena.table[index]? = some old ∧ slot.bare = old.bare := by
  have hbare : ((arena.shade root).table.map Slot.bare)[index]? =
      (arena.table.map Slot.bare)[index]? := by rw [map_bare_shade]
  rw [Array.getElem?_map, Array.getElem?_map, hslot] at hbare
  obtain ⟨old, hold, heq⟩ := Option.map_eq_some_iff.mp hbare.symm
  exact ⟨old, hold, heq.symm⟩

theorem exists_slot_shade (root : Handle) {index : Nat} {slot : Slot}
    (hslot : arena.table[index]? = some slot) :
    ∃ shaded, (arena.shade root).table[index]? = some shaded ∧ shaded.bare = slot.bare := by
  have hbare : ((arena.shade root).table.map Slot.bare)[index]? =
      (arena.table.map Slot.bare)[index]? := by rw [map_bare_shade]
  rw [Array.getElem?_map, Array.getElem?_map, hslot] at hbare
  exact Option.map_eq_some_iff.mp hbare

namespace Coherent

theorem shade (hcoherent : arena.Coherent issued) (root : Handle) :
    (arena.shade root).Coherent issued where
  issued_le_size := by simpa using hcoherent.issued_le_size
  issued_le_capacity := by simpa using hcoherent.issued_le_capacity
  capacity_le := by simpa using hcoherent.capacity_le
  size_mod := by simpa using hcoherent.size_mod
  generation_ne_zero index slot hslot := by
    obtain ⟨old, hold, hbare⟩ := exists_slot_of_shade hslot
    rw [Slot.generation_eq_of_bare_eq hbare]
    exact hcoherent.generation_ne_zero index old hold
  vacant_from index slot hindex hslot := by
    obtain ⟨old, hold, hbare⟩ := exists_slot_of_shade hslot
    exact (Slot.entry_eq_none_iff_of_bare_eq hbare).mpr
      (hcoherent.vacant_from index old hindex hold)
  vacant_nodup := by simpa using hcoherent.vacant_nodup
  mem_vacant index := by
    rw [shade_vacant, hcoherent.mem_vacant]
    refine and_congr_right fun _ => ⟨?_, ?_⟩
    · rintro ⟨slot, hslot, hnone⟩
      obtain ⟨shaded, hshaded, hbare⟩ := exists_slot_shade root hslot
      exact ⟨shaded, hshaded, (Slot.entry_eq_none_iff_of_bare_eq hbare).mpr hnone⟩
    · rintro ⟨slot, hslot, hnone⟩
      obtain ⟨old, hold, hbare⟩ := exists_slot_of_shade hslot
      exact ⟨old, hold, (Slot.entry_eq_none_iff_of_bare_eq hbare).mp hnone⟩
  size_add_vacant := by simpa using hcoherent.size_add_vacant
  interned_iff node handle := by simpa using hcoherent.interned_iff node handle
  stamps_le handle entry hentry := by
    -- only the second stamp is new, and it is the epoch of now
    rw [entryOf?_shade] at hentry
    rw [shade_epoch]
    split at hentry
    · obtain ⟨old, hold, rfl⟩ := Option.map_eq_some_iff.mp hentry
      exact ⟨(hcoherent.stamps_le handle old hold).1, Nat.le_refl _⟩
    · exact hcoherent.stamps_le handle entry hentry

/-! ## Taking a slot -/

/-- The slot on top of the stack holds no entry. -/
theorem slot_of_vacant (hcoherent : arena.Coherent issued) {index : UInt32}
    (hindex : index ∈ arena.vacant) : arena.table[index.toNat]? =
      some { generation := arena.table.generation index, entry := none } := by
  obtain ⟨-, slot, hslot, hnone⟩ := (hcoherent.mem_vacant index).mp hindex
  have hgeneration : arena.table.generation index = slot.generation := by
    simp only [Table.generation, hslot]
  rw [hslot, hgeneration, ← hnone]

/-- A handle to a vacant slot names nothing. -/
theorem entryOf?_of_vacant (hcoherent : arena.Coherent issued) {handle : Handle}
    (hindex : handle.index ∈ arena.vacant) : arena.table.entryOf? handle = none := by
  rw [Table.entryOf?_of_slot (hcoherent.slot_of_vacant hindex), ite_self]

/-- With no slot vacant and room for a node, the next index is that of a slot not issued yet. -/
theorem toNat_nextIndex (hcoherent : arena.Coherent issued) (hvacant : arena.vacant = [])
    (hroom : arena.size < arena.capacity) :
    (UInt32.ofNat arena.table.size).toNat = issued := by
  have hsize := hcoherent.size_add_vacant
  rw [hvacant, List.length_nil, Nat.add_zero] at hsize
  have hlt : issued < Handle.indexBound := by
    rw [← hsize]
    exact Nat.lt_of_lt_of_le hroom hcoherent.capacity_le
  rw [UInt32.toNat_ofNat']
  exact hcoherent.size_mod.trans (Nat.mod_eq_of_lt hlt)

/-- Pushing a fresh slot leaves the slots that were there. -/
theorem slot_of_push {index : Nat} {slot : Slot}
    (hslot : (arena.table.push .fresh)[index]? = some slot) :
    slot = .fresh ∨ arena.table[index]? = some slot := by
  rw [Array.getElem?_push] at hslot
  split at hslot
  · exact .inl (Option.some.inj hslot).symm
  · exact .inr hslot

/-- With no slot vacant before, the new slot is the only one. -/
theorem mem_vacant_grow (hcoherent : arena.Coherent issued) (hvacant : arena.vacant = [])
    (hroom : arena.size < arena.capacity) (index : UInt32) :
    index ∈ [UInt32.ofNat arena.table.size] ↔ index.toNat < issued + 1 ∧
      ∃ slot, (arena.table.push .fresh)[index.toNat]? = some slot ∧ slot.entry = none := by
  rw [List.mem_singleton, ← UInt32.toNat_inj, hcoherent.toNat_nextIndex hvacant hroom]
  constructor
  · intro heq
    have hlt : index.toNat < (arena.table.push Slot.fresh).size := by
      rw [Array.size_push, heq]
      exact Nat.lt_succ_of_le hcoherent.issued_le_size
    refine ⟨by omega, _, Array.getElem?_eq_getElem hlt, ?_⟩
    rcases slot_of_push (Array.getElem?_eq_getElem hlt) with hfresh | hold
    · rw [hfresh, Slot.entry_fresh]
    · exact hcoherent.vacant_from _ _ (Nat.le_of_eq heq.symm) hold
  · rintro ⟨hlt, slot, hslot, hnone⟩
    -- any other vacant slot would be on the stack
    by_contra hne
    have hissued : index.toNat < issued := by omega
    have hold : arena.table[index.toNat]? = some slot := by
      rw [Array.getElem?_push, if_neg] at hslot
      · exact hslot
      · have := hcoherent.issued_le_size
        omega
    have hmem := (hcoherent.mem_vacant index).mpr ⟨hissued, slot, hold, hnone⟩
    rw [hvacant] at hmem
    cases hmem

/-- A new slot goes onto the stack. -/
theorem grow (hcoherent : arena.Coherent issued) (hvacant : arena.vacant = [])
    (hroom : arena.size < arena.capacity) :
    ({ arena with
      table := arena.table.push .fresh
      vacant := [UInt32.ofNat arena.table.size] } : Arena).Coherent (issued + 1) := by
  -- nothing is vacant, so every slot that was issued holds a node
  have hsize := hcoherent.size_add_vacant
  rw [hvacant, List.length_nil, Nat.add_zero] at hsize
  refine
    { issued_le_size := ?_
      issued_le_capacity := ?_
      capacity_le := hcoherent.capacity_le
      size_mod := ?_
      generation_ne_zero := ?_
      vacant_from := ?_
      vacant_nodup := List.nodup_singleton _
      mem_vacant := hcoherent.mem_vacant_grow hvacant hroom
      size_add_vacant := congrArg (· + 1) hsize
      interned_iff := ?_
      stamps_le := ?_ }
  · simpa using hcoherent.issued_le_size
  · show issued + 1 ≤ arena.capacity
    omega
  · show (arena.table.push .fresh).size % Handle.indexBound = _
    rw [Array.size_push, Nat.add_mod, hcoherent.size_mod, ← Nat.add_mod]
  · intro index slot hslot
    rcases slot_of_push hslot with rfl | hold
    · decide
    · exact hcoherent.generation_ne_zero index slot hold
  · intro index slot hle hslot
    rcases slot_of_push hslot with rfl | hold
    · rfl
    · exact hcoherent.vacant_from index slot (Nat.le_of_succ_le hle) hold
  · intro node handle
    show arena.interned[node]? = some handle ↔ _
    rw [hcoherent.interned_iff, node?, node?, Table.entryOf?_push_fresh]
  · intro handle entry hentry
    rw [Table.entryOf?_push_fresh] at hentry
    exact hcoherent.stamps_le handle entry hentry

/-- What the slot on top of the stack does to the entries when it takes one. -/
theorem entryOf?_fill (hcoherent : arena.Coherent issued) {index : UInt32}
    (hindex : index ∈ arena.vacant) (entry : Entry) (handle : Handle) :
    (arena.table.occupy index entry).entryOf? handle =
      if handle = ⟨index, arena.table.generation index⟩ then some entry
      else arena.table.entryOf? handle := by
  rw [Table.entryOf?_occupy (hcoherent.slot_of_vacant hindex)]
  by_cases hsame : handle.index = index
  · subst hsame
    rw [if_pos rfl]
    by_cases hgeneration : arena.table.generation handle.index = handle.generation
    · rw [if_pos hgeneration, if_pos (by rw [hgeneration])]
    · rw [if_neg hgeneration, if_neg fun h => hgeneration (congrArg Handle.generation h).symm,
        hcoherent.entryOf?_of_vacant hindex]
  · rw [if_neg hsame, if_neg fun h => hsame (congrArg Handle.index h)]

/-- The slot on top leaves the stack as it takes an entry. -/
theorem mem_vacant_fill (hcoherent : arena.Coherent issued) {index : UInt32} {rest : List UInt32}
    (hvacant : arena.vacant = index :: rest) (entry : Entry) (other : UInt32) :
    other ∈ rest ↔ other.toNat < issued ∧
      ∃ slot, (arena.table.occupy index entry)[other.toNat]? = some slot ∧ slot.entry = none := by
  have hnodup := hcoherent.vacant_nodup
  rw [hvacant, List.nodup_cons] at hnodup
  rw [Table.getElem?_occupy]
  by_cases hsame : other = index
  · subst hsame
    rw [if_pos rfl]
    refine ⟨fun hmem => absurd hmem hnodup.1, ?_⟩
    rintro ⟨-, slot, hslot, hnone⟩
    obtain ⟨old, -, rfl⟩ := Option.map_eq_some_iff.mp hslot
    cases hnone
  · rw [if_neg fun h => hsame (UInt32.toNat_inj.mp h.symm), ← hcoherent.mem_vacant, hvacant,
      List.mem_cons]
    simp [hsame]

/-- The table of nodes takes in a node that it did not have. -/
theorem interned_fill (hcoherent : arena.Coherent issued) {index : UInt32}
    (hindex : index ∈ arena.vacant) (entry : Entry) (hnew : arena.interned[entry.node]? = none)
    (node : Node) (handle : Handle) :
    (arena.interned.insert entry.node ⟨index, arena.table.generation index⟩)[node]? = some handle ↔
      ((arena.table.occupy index entry).entryOf? handle).map Entry.node = some node := by
  rw [Std.HashMap.getElem?_insert, hcoherent.entryOf?_fill hindex]
  by_cases hnode : entry.node = node
  · subst hnode
    rw [if_pos (beq_self_eq_true _), Option.some.injEq]
    by_cases hhandle : handle = ⟨index, arena.table.generation index⟩
    · simp [hhandle]
    · rw [if_neg hhandle]
      refine ⟨fun h => absurd h.symm hhandle, ?_⟩
      -- an equal node under another handle would be interned already
      intro hother
      have hinterned := (hcoherent.interned_iff entry.node handle).mpr hother
      rw [hnew] at hinterned
      cases hinterned
  · rw [if_neg (by simpa using hnode), hcoherent.interned_iff]
    by_cases hhandle : handle = ⟨index, arena.table.generation index⟩
    · subst hhandle
      rw [if_pos rfl, node?, hcoherent.entryOf?_of_vacant hindex]
      simp [hnode]
    · rw [if_neg hhandle]
      rfl

/-- The slot on top of the stack takes a node. -/
theorem fill (hcoherent : arena.Coherent issued) {index : UInt32} {rest : List UInt32}
    (hvacant : arena.vacant = index :: rest) (entry : Entry)
    (hnew : arena.interned[entry.node]? = none) (hborn : entry.born ≤ arena.epoch)
    (hshaded : entry.shaded ≤ arena.epoch) :
    ({ arena with
      table := arena.table.occupy index entry
      vacant := rest
      interned := arena.interned.insert entry.node ⟨index, arena.table.generation index⟩
      size := arena.size + 1 } : Arena).Coherent issued := by
  have hindex : index ∈ arena.vacant := by
    rw [hvacant]
    exact List.mem_cons_self
  have hissued := ((hcoherent.mem_vacant index).mp hindex).1
  have hnodup := hcoherent.vacant_nodup
  rw [hvacant, List.nodup_cons] at hnodup
  -- apart from the slot on the top of the stack everything stays
  refine
    { issued_le_size := ?_
      issued_le_capacity := hcoherent.issued_le_capacity
      capacity_le := hcoherent.capacity_le
      size_mod := ?_
      generation_ne_zero := ?_
      vacant_from := ?_
      vacant_nodup := hnodup.2
      mem_vacant := hcoherent.mem_vacant_fill hvacant entry
      size_add_vacant := ?_
      interned_iff := hcoherent.interned_fill hindex entry hnew
      stamps_le := ?_ }
  · simpa [Table.occupy] using hcoherent.issued_le_size
  · simpa [Table.occupy] using hcoherent.size_mod
  · intro position slot hslot
    rw [Table.getElem?_occupy] at hslot
    split at hslot
    · obtain ⟨old, hold, rfl⟩ := Option.map_eq_some_iff.mp hslot
      exact hcoherent.generation_ne_zero position old hold
    · exact hcoherent.generation_ne_zero position slot hslot
  · intro position slot hle hslot
    rw [Table.getElem?_occupy, if_neg (by omega)] at hslot
    exact hcoherent.vacant_from position slot hle hslot
  · have hsize := hcoherent.size_add_vacant
    rw [hvacant, List.length_cons] at hsize
    show arena.size + 1 + rest.length = issued
    omega
  · intro handle other hother
    rw [hcoherent.entryOf?_fill hindex] at hother
    split at hother
    · obtain rfl := Option.some.inj hother
      exact ⟨hborn, hshaded⟩
    · exact hcoherent.stamps_le handle other hother

/-! ## Vacating slots -/

/-- Taking a node away takes its handle out of use and touches no other entry. -/
theorem entryOf?_remove {handle other : Handle} {entry : Entry} (node : Node)
    (hentry : arena.table.entryOf? handle = some entry) :
    (arena.remove handle node).table.entryOf? other =
      if other = handle then none else arena.table.entryOf? other := by
  show (arena.table.vacate handle.index).entryOf? other = _
  rw [Table.entryOf?_vacate]
  by_cases hhandle : other = handle
  · rw [if_pos (congrArg Handle.index hhandle), if_pos hhandle]
  · rw [if_neg hhandle]
    -- another handle of the slot names nothing, since the slot is in one generation
    split
    · rename_i hindex
      cases hother : arena.table.entryOf? other with
      | none => rfl
      | some otherEntry =>
          exact absurd (Table.entryOf?_index_injective hother hentry hindex) hhandle
    · rfl

/-- The slot of the node goes onto the stack. -/
theorem mem_vacant_remove (hcoherent : arena.Coherent issued) {handle : Handle} {entry : Entry}
    (hentry : arena.table.entryOf? handle = some entry) (index : UInt32) :
    index ∈ handle.index :: arena.vacant ↔ index.toNat < issued ∧
      ∃ slot, (arena.table.vacate handle.index)[index.toNat]? = some slot ∧
        slot.entry = none := by
  have hhere := Table.entryOf?_eq_some_iff.mp hentry
  rw [List.mem_cons, Table.getElem?_vacate]
  by_cases hsame : index = handle.index
  · subst hsame
    rw [if_pos rfl, hhere]
    exact ⟨fun _ => ⟨hcoherent.index_lt hentry, _, rfl, Slot.entry_vacated _⟩, fun _ => .inl rfl⟩
  · rw [if_neg fun h => hsame (UInt32.toNat_inj.mp h.symm), ← hcoherent.mem_vacant]
    simp [hsame]

/-- The table of nodes loses this node and no other. -/
theorem interned_remove (hcoherent : arena.Coherent issued) {handle : Handle} {entry : Entry}
    (hentry : arena.table.entryOf? handle = some entry) (node : Node) (other : Handle) :
    (arena.interned.erase entry.node)[node]? = some other ↔
      (arena.remove handle entry.node).node? other = some node := by
  have hnode : arena.node? handle = some entry.node := node?_eq_some_iff.mpr ⟨entry, hentry, rfl⟩
  rw [node?, Std.HashMap.getElem?_erase, entryOf?_remove _ hentry]
  by_cases hsame : other = handle
  · subst hsame
    rw [if_pos rfl]
    split
    · simp
    · rename_i hne
      rw [hcoherent.interned_iff, hnode]
      simpa using hne
  · rw [if_neg hsame]
    split
    · -- two handles never name equal nodes
      rename_i heq
      obtain rfl := eq_of_beq heq
      refine ⟨(by intro h; cases h), ?_⟩
      intro hother
      exact absurd (hcoherent.node?_injective hother hnode) hsame
    · exact hcoherent.interned_iff node other

/-- The slot of a node is vacated and goes onto the stack. -/
theorem remove (hcoherent : arena.Coherent issued) {handle : Handle} {entry : Entry}
    (hentry : arena.table.entryOf? handle = some entry) :
    (arena.remove handle entry.node).Coherent issued := by
  have hissued := hcoherent.index_lt hentry
  have hnotVacant := hcoherent.not_mem_vacant hentry
  refine
    { issued_le_size := ?_
      issued_le_capacity := hcoherent.issued_le_capacity
      capacity_le := hcoherent.capacity_le
      size_mod := ?_
      generation_ne_zero := ?_
      vacant_from := ?_
      vacant_nodup := List.nodup_cons.mpr ⟨hnotVacant, hcoherent.vacant_nodup⟩
      mem_vacant := hcoherent.mem_vacant_remove hentry
      size_add_vacant := ?_
      interned_iff := hcoherent.interned_remove hentry
      stamps_le := ?_ }
  · simpa [Arena.remove, Table.vacate] using hcoherent.issued_le_size
  · simpa [Arena.remove, Table.vacate] using hcoherent.size_mod
  · intro position slot hslot
    rw [Arena.remove, Table.getElem?_vacate] at hslot
    split at hslot
    · obtain ⟨old, hold, rfl⟩ := Option.map_eq_some_iff.mp hslot
      exact Slot.generation_vacated_ne_zero (hcoherent.generation_ne_zero position old hold)
    · exact hcoherent.generation_ne_zero position slot hslot
  · intro position slot hle hslot
    rw [Arena.remove, Table.getElem?_vacate, if_neg (by omega)] at hslot
    exact hcoherent.vacant_from position slot hle hslot
  · have hsize := hcoherent.size_add_vacant
    have hpositive := hcoherent.size_pos hentry
    show arena.size - 1 + (arena.vacant.length + 1) = issued
    omega
  · intro other otherEntry hother
    rw [entryOf?_remove _ hentry] at hother
    split at hother
    · cases hother
    · exact hcoherent.stamps_le other otherEntry hother

/-- After clearing no handle names an entry. -/
theorem entryOf?_clear (arena : Arena) (handle : Handle) :
    arena.clear.2.table.entryOf? handle = none := by
  have hslot : (arena.table.map Slot.vacated)[handle.index.toNat]? =
      arena.table[handle.index.toNat]?.map Slot.vacated := Array.getElem?_map
  show Table.entryOf? (arena.table.map Slot.vacated) handle = none
  rw [Table.entryOf?, hslot]
  cases arena.table[handle.index.toNat]? with
  | none => rfl
  | some slot => simp

/-- Clearing leaves vacant slots only. -/
theorem entry_of_clear {position : Nat} {slot : Slot}
    (hslot : (arena.table.map Slot.vacated)[position]? = some slot) :
    slot.entry = none ∧ ∃ old, arena.table[position]? = some old ∧ slot = old.vacated := by
  rw [Array.getElem?_map] at hslot
  obtain ⟨old, hold, rfl⟩ := Option.map_eq_some_iff.mp hslot
  exact ⟨Slot.entry_vacated old, old, hold, rfl⟩

/-- The indices below a bound that 32 bits can tell apart. -/
theorem mem_indices_iff {bound : Nat} (hbound : bound ≤ Handle.indexBound) (index : UInt32) :
    index ∈ (List.range bound).map UInt32.ofNat ↔ index.toNat < bound := by
  rw [List.mem_map]
  constructor
  · rintro ⟨position, hposition, rfl⟩
    rw [List.mem_range] at hposition
    rwa [UInt32.toNat_ofNat_of_lt' (Nat.lt_of_lt_of_le hposition hbound)]
  · intro hindex
    exact ⟨index.toNat, List.mem_range.mpr hindex, UInt32.ofNat_toNat⟩

theorem nodup_indices {bound : Nat} (hbound : bound ≤ Handle.indexBound) :
    ((List.range bound).map UInt32.ofNat).Nodup := by
  refine List.Nodup.map_on ?_ List.nodup_range
  intro first hfirst second hsecond hsame
  rw [List.mem_range] at hfirst hsecond
  have heq := congrArg UInt32.toNat hsame
  rwa [UInt32.toNat_ofNat_of_lt' (Nat.lt_of_lt_of_le hfirst hbound),
    UInt32.toNat_ofNat_of_lt' (Nat.lt_of_lt_of_le hsecond hbound)] at heq

/-- Clearing stacks the issued slots anew, or none of them if there are `2 ^ 32`. -/
theorem clear (hcoherent : arena.Coherent issued) :
    arena.clear.2.Coherent (issued % Handle.indexBound) := by
  -- the indices are 32 bits, so a table with a slot for each of them is cleared as an empty one
  have hcount : (UInt32.ofNat arena.table.size).toNat = issued % Handle.indexBound := by
    rw [UInt32.toNat_ofNat']
    exact hcoherent.size_mod
  have hle : issued % Handle.indexBound ≤ issued := Nat.mod_le _ _
  have hbound : issued % Handle.indexBound ≤ Handle.indexBound :=
    Nat.le_trans hle hcoherent.issued_le
  have hvacant : arena.clear.2.vacant =
      (List.range (issued % Handle.indexBound)).map UInt32.ofNat := by
    rw [← hcount]
    rfl
  refine
    { issued_le_size := ?_
      issued_le_capacity := Nat.le_trans hle hcoherent.issued_le_capacity
      capacity_le := hcoherent.capacity_le
      size_mod := ?_
      generation_ne_zero := ?_
      vacant_from := ?_
      vacant_nodup := hvacant ▸ nodup_indices hbound
      mem_vacant := ?_
      size_add_vacant := ?_
      interned_iff := ?_
      stamps_le := ?_ }
  · show _ ≤ (arena.table.map Slot.vacated).size
    rw [Array.size_map]
    exact Nat.le_trans hle hcoherent.issued_le_size
  · show (arena.table.map Slot.vacated).size % Handle.indexBound = _
    rw [Array.size_map, hcoherent.size_mod, Nat.mod_mod]
  · intro position slot hslot
    obtain ⟨-, old, hold, rfl⟩ := entry_of_clear hslot
    exact Slot.generation_vacated_ne_zero (hcoherent.generation_ne_zero position old hold)
  · intro position slot _ hslot
    exact (entry_of_clear hslot).1
  · intro index
    rw [hvacant, mem_indices_iff hbound]
    refine ⟨fun hindex => ⟨hindex, ?_⟩, And.left⟩
    have hsize : index.toNat < (arena.table.map Slot.vacated).size := by
      rw [Array.size_map]
      exact Nat.lt_of_lt_of_le hindex (Nat.le_trans hle hcoherent.issued_le_size)
    exact ⟨_, Array.getElem?_eq_getElem hsize, (entry_of_clear (Array.getElem?_eq_getElem hsize)).1⟩
  · rw [hvacant, List.length_map, List.length_range]
    exact Nat.zero_add _
  · intro node handle
    rw [node?, entryOf?_clear]
    show (∅ : Std.HashMap Node Handle)[node]? = _ ↔ _
    simp
  · intro handle entry hentry
    rw [entryOf?_clear] at hentry
    cases hentry

end Coherent

end Arena

end ExprHeap
