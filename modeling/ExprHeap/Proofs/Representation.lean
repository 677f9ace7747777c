import ExprHeap.Proofs.Barrier

/-!
# The four records of an arena

Whatever calls are made of an arena, in any order and with any arguments, its slots, its stack of
vacant slots, its map of nodes and its count go on telling of the same nodes: handles that are
stale or made up, nodes released while others name them as children, slots reclaimed for any
epoch and under any judgement of what is live.

## Strategy

`Coherent` says most of it, for the slots issued so far.  An arena that is never cleared has
issued every slot of its table (`Arena.Whole`); each call keeps that, as only `place` makes a new
slot, and it fills it at once.  What is left is to count: the stack has every vacant slot exactly
once, so the slots that are not on it are the occupied ones (`Whole.size_eq_countP`).
-/

namespace ExprHeap

/-- A call of an arena. -/
inductive ArenaCall where
  | allocate (node : Node)
  | release (handle : Handle)
  | shade (root : Handle)
  | beginCycle
  | endCycle
  | reclaim (epoch : Nat) (isLive : Handle → Bool) (index : Nat)

namespace Arena

variable {arena : Arena}

/-- The arena after a call; a call that is turned down leaves it as it is. -/
def call (arena : Arena) : ArenaCall → Arena
  | .allocate node => arena.request node
  | .release handle =>
    match arena.release handle with
    | .ok (_, after) => after
    | .error _ => arena
  | .shade root => arena.shade root
  | .beginCycle => arena.beginCycle
  | .endCycle => arena.endCycle
  | .reclaim epoch isLive index => (arena.reclaim epoch isLive index).2

/-- The arena after calls made one after the other on an empty one. -/
def afterCalls (capacity : Nat) (calls : List ArenaCall) : Arena :=
  calls.foldl call (.empty capacity)

/-! ## Arenas whose slots have all been issued -/

/-- Coherent, with every slot in use or on the stack. -/
def Whole (arena : Arena) : Prop := arena.Coherent arena.table.size

theorem whole_empty (capacity : Nat) : (Arena.empty capacity).Whole := coherent_empty capacity

/-- Of a coherent arena it is enough to look at the numbers. -/
theorem Coherent.whole {issued : Nat} (hcoherent : arena.Coherent issued)
    (hsize : arena.size + arena.vacant.length = arena.table.size) : arena.Whole := by
  have hissued : arena.table.size = issued := hsize.symm.trans hcoherent.size_add_vacant
  rw [Whole, hissued]
  exact hcoherent

namespace Whole

theorem shade (hwhole : arena.Whole) (root : Handle) : (arena.shade root).Whole := by
  rw [Whole, size_table_shade]
  exact Coherent.shade hwhole root

theorem foldl_shade (hwhole : arena.Whole) (roots : List Handle) :
    (roots.foldl Arena.shade arena).Whole := by
  induction roots generalizing arena with
  | nil => exact hwhole
  | cons root rest ih => exact ih (hwhole.shade root)

/-- A new node takes a slot from the stack, or one more slot. -/
theorem place (hwhole : arena.Whole) (hroom : arena.size < arena.capacity) {node : Node}
    (hnew : arena.interned[node]? = none) : (arena.place node).2.Whole := by
  obtain ⟨⟨_, hplaced⟩, -⟩ := Coherent.place hwhole hroom hnew
  refine hplaced.whole ?_
  have hsize := Coherent.size_add_vacant hwhole
  -- either the table grows by the slot that is issued, or a slot that was vacant is taken
  cases hvacant : arena.vacant with
  | nil =>
      rw [hvacant, List.length_nil] at hsize
      simp only [Arena.place, takeVacant, hvacant, List.length_nil, Table.occupy,
        Array.size_modify, Array.size_push]
      omega
  | cons index rest =>
      rw [hvacant, List.length_cons] at hsize
      simp only [Arena.place, takeVacant, hvacant, Table.occupy, Array.size_modify]
      omega

theorem request (hwhole : arena.Whole) (node : Node) : (arena.request node).Whole := by
  rcases arena.request_steps node with hsame | ⟨handle, hshade⟩ | ⟨hnew, hroom, hplace⟩
  · rw [hsame]
    exact hwhole
  · rw [hshade]
    exact hwhole.shade handle
  · rw [hplace]
    exact (hwhole.foldl_shade node.children).place hroom hnew

theorem remove (hwhole : arena.Whole) {handle : Handle} {entry : Entry}
    (hentry : arena.table.entryOf? handle = some entry) :
    (arena.remove handle entry.node).Whole := by
  have hsize : (arena.remove handle entry.node).table.size = arena.table.size :=
    Array.size_modify
  rw [Whole, hsize]
  exact Coherent.remove hwhole hentry

/-- **Every call keeps an arena whole.** -/
theorem call (hwhole : arena.Whole) (next : ArenaCall) : (arena.call next).Whole := by
  cases next with
  | allocate node => exact hwhole.request node
  | release handle =>
      simp only [Arena.call, Arena.release]
      cases hentry : arena.table.entryOf? handle with
      | none => exact hwhole
      | some entry => exact hwhole.remove hentry
  | shade root => exact hwhole.shade root
  | beginCycle => exact Coherent.beginCycle hwhole
  | endCycle => exact Coherent.endCycle hwhole
  | reclaim epoch isLive index =>
      rcases Coherent.reclaim_cases hwhole epoch isLive index with
        ⟨hkept, -⟩ | ⟨handle, entry, -, hentry, -, htaken⟩
      · rw [Arena.call, hkept]
        exact hwhole
      · rw [Arena.call, htaken]
        exact hwhole.remove hentry

end Whole

/-! ## Counting the occupied slots -/

/-- A list is counted by its positions. -/
theorem countP_range_length {α : Type} (property : α → Bool) (list : List α) :
    (List.range list.length).countP (fun position => list[position]?.any property) =
      list.countP property := by
  induction list with
  | nil => rfl
  | cons first rest ih =>
      rw [List.length_cons, List.range_succ_eq_map, List.countP_cons, List.countP_map,
        List.countP_cons, ← ih]
      rfl

namespace Whole

/-- The stack is as high as there are vacant slots. -/
theorem length_vacant (hwhole : arena.Whole) :
    arena.vacant.length = arena.table.countP fun slot => slot.entry.isNone := by
  let vacantAt : Nat → Bool := fun index =>
    arena.table.toList[index]?.any fun slot => slot.entry.isNone
  have hvacantAt : ∀ index, vacantAt index = true ↔
      ∃ slot, arena.table[index]? = some slot ∧ slot.entry = none := by
    intro index
    simp [vacantAt, Option.any_eq_true]
  have hmem : ∀ index : UInt32, index ∈ arena.vacant ↔
      index.toNat < arena.table.size ∧ vacantAt index.toNat = true := by
    intro index
    rw [hvacantAt]
    exact Coherent.mem_vacant hwhole index
  -- as numbers, the indices on the stack are the positions of the vacant slots
  have hperm : (arena.vacant.map UInt32.toNat).Perm
      ((List.range arena.table.toList.length).filter vacantAt) := by
    refine (List.perm_ext_iff_of_nodup ?_ (List.nodup_range.filter _)).mpr fun position => ?_
    · exact List.Nodup.map (fun _ _ h => UInt32.toNat_inj.mp h) (Coherent.vacant_nodup hwhole)
    · rw [List.mem_map, List.mem_filter, List.mem_range, Array.length_toList]
      constructor
      · rintro ⟨index, hindex, rfl⟩
        exact (hmem index).mp hindex
      · rintro ⟨hlt, hvacant⟩
        have hfits : (UInt32.ofNat position).toNat = position :=
          UInt32.toNat_ofNat_of_lt' (Nat.lt_of_lt_of_le hlt (Coherent.issued_le hwhole))
        refine ⟨UInt32.ofNat position, (hmem _).mpr ?_, hfits⟩
        rw [hfits]
        exact ⟨hlt, hvacant⟩
  rw [← List.length_map UInt32.toNat, hperm.length_eq, ← List.countP_eq_length_filter,
    countP_range_length, Array.countP_toList]

theorem size_eq_countP (hwhole : arena.Whole) :
    arena.size = arena.table.countP fun slot => slot.entry.isSome := by
  have hsize := Coherent.size_add_vacant hwhole
  have hvacant := hwhole.length_vacant
  have hnone : (fun slot : Slot => decide ¬(slot.entry.isSome = true)) =
      fun slot => slot.entry.isNone := by
    funext slot
    cases slot.entry <;> rfl
  -- every slot is vacant or taken, and the vacant ones have been counted
  have hsplit : arena.table.size = (arena.table.countP fun slot => slot.entry.isSome) +
      arena.table.countP fun slot => decide ¬(slot.entry.isSome = true) :=
    Array.size_eq_countP_add_countP
  rw [hnone] at hsplit
  omega

end Whole

/-! ## The records agree -/

/-- What the four records of an arena have to do with each other, slot by slot. -/
structure Consistent (arena : Arena) : Prop where
  vacant_nodup : arena.vacant.Nodup
  mem_vacant : ∀ index : UInt32,
    index ∈ arena.vacant ↔ ∃ slot, arena.table[index.toNat]? = some slot ∧ slot.entry = none
  size_eq : arena.size = arena.table.countP fun slot => slot.entry.isSome
  size_add_vacant : arena.size + arena.vacant.length = arena.table.size
  size_le : arena.table.size ≤ arena.capacity
  generation_bounds : ∀ slot ∈ arena.table,
    1 ≤ slot.generation.toNat ∧ slot.generation.toNat ≤ UInt32.size - 1
  interned_iff : ∀ (node : Node) (handle : Handle), arena.interned[node]? = some handle ↔
    ∃ entry, arena.table[handle.index.toNat]? = some ⟨handle.generation, some entry⟩ ∧
      entry.node = node
  stamps_le : ∀ slot ∈ arena.table, ∀ entry ∈ slot.entry,
    entry.born ≤ arena.epoch ∧ entry.shaded ≤ arena.epoch

theorem Whole.toNat_ofNat (hwhole : arena.Whole) {index : Nat} (hindex : index < arena.table.size) :
    (UInt32.ofNat index).toNat = index :=
  UInt32.toNat_ofNat_of_lt' (Nat.lt_of_lt_of_le hindex (Coherent.issued_le hwhole))

theorem Whole.consistent (hwhole : arena.Whole) : arena.Consistent where
  vacant_nodup := Coherent.vacant_nodup hwhole
  mem_vacant index := by
    rw [Coherent.mem_vacant hwhole]
    refine and_iff_right_of_imp ?_
    rintro ⟨slot, hslot, -⟩
    exact (Array.getElem?_eq_some_iff.mp hslot).1
  size_eq := hwhole.size_eq_countP
  size_add_vacant := Coherent.size_add_vacant hwhole
  size_le := Coherent.issued_le_capacity hwhole
  generation_bounds slot hslot := by
    obtain ⟨index, hindex⟩ := Array.mem_iff_getElem?.mp hslot
    have hne := Coherent.generation_ne_zero hwhole index slot hindex
    have hpos : slot.generation.toNat ≠ 0 := fun h => hne (UInt32.toNat_inj.mp h)
    exact ⟨Nat.pos_of_ne_zero hpos, Nat.le_pred_of_lt slot.generation.toNat_lt_size⟩
  interned_iff node handle := by
    simp only [Coherent.interned_iff hwhole, node?_eq_some_iff, Table.entryOf?_eq_some_iff]
  stamps_le slot hslot entry hentry := by
    obtain ⟨index, hindex⟩ := Array.mem_iff_getElem?.mp hslot
    have hfits := hwhole.toNat_ofNat (Array.getElem?_eq_some_iff.mp hindex).1
    refine Coherent.stamps_le hwhole ⟨UInt32.ofNat index, slot.generation⟩ entry ?_
    rw [Table.entryOf?_eq_some_iff, hfits, hindex, ← Option.mem_def.mp hentry]

/-! ## Runs of calls -/

@[simp] theorem place_capacity (arena : Arena) (node : Node) :
    (arena.place node).2.capacity = arena.capacity := by
  cases hvacant : arena.vacant <;> simp only [place, takeVacant, hvacant]

@[simp] theorem place_size (arena : Arena) (node : Node) :
    (arena.place node).2.size = arena.size + 1 := by
  cases hvacant : arena.vacant <;> simp only [place, takeVacant, hvacant]

theorem call_capacity (arena : Arena) (next : ArenaCall) :
    (arena.call next).capacity = arena.capacity := by
  cases next with
  | allocate node =>
      rcases arena.request_steps node with hsame | ⟨handle, hshade⟩ | ⟨-, -, hplace⟩
      · exact congrArg Arena.capacity hsame
      · exact (congrArg Arena.capacity hshade).trans (shade_capacity arena handle)
      · rw [call, hplace, place_capacity, foldl_shade_eq Arena.capacity shade_capacity]
  | release handle =>
      simp only [call, release]
      cases arena.table.entryOf? handle <;> rfl
  | shade root => exact shade_capacity arena root
  | beginCycle => rfl
  | endCycle => rfl
  | reclaim epoch isLive index =>
      simp only [call, reclaim]
      split
      · split <;> rfl
      · rfl

theorem Whole.foldl_call (hwhole : arena.Whole) (calls : List ArenaCall) :
    (calls.foldl Arena.call arena).Whole := by
  induction calls generalizing arena with
  | nil => exact hwhole
  | cons next rest ih => exact ih (hwhole.call next)

theorem foldl_call_capacity (arena : Arena) (calls : List ArenaCall) :
    (calls.foldl call arena).capacity = arena.capacity := by
  induction calls generalizing arena with
  | nil => rfl
  | cons next rest ih => exact (ih _).trans (call_capacity arena next)

/-- A new node gets a handle that named nothing, and every other handle names what it named. -/
theorem Coherent.node?_of_fresh {issued : Nat} (hcoherent : arena.Coherent issued) {node : Node}
    {handle : Handle} {after : Arena}
    (hallocate : arena.allocate node = .ok (.fresh handle, after)) :
    arena.contains handle = false ∧ ∀ other, after.node? other =
      if other = handle then some node else arena.node? other := by
  have hnewborn : arena.newborn? node = some handle := by simp only [newborn?, hallocate]
  refine ⟨(hcoherent.newborn_spec hnewborn).1, fun other => ?_⟩
  rw [← request_of_ok hallocate, hcoherent.node?_request, hnewborn]
  simp only [Option.some.injEq, eq_comm]

/-- **The records of an arena stay consistent**, whatever its capacity and whatever calls are made
of it.  No index of a slot is cut short on its way into 32 bits, two handles never name equal
nodes, and a node that is not shared gets a handle that named nothing before, while every other
handle goes on naming what it named. -/
theorem records_stay_consistent (capacity : Nat) (calls : List ArenaCall) :
    (afterCalls capacity calls).Consistent ∧
      (afterCalls capacity calls).capacity = min capacity UInt32.size ∧
      (∀ index < (afterCalls capacity calls).table.size, (UInt32.ofNat index).toNat = index) ∧
      (∀ first second node, (afterCalls capacity calls).node? first = some node →
        (afterCalls capacity calls).node? second = some node → first = second) ∧
      ∀ node handle after, (afterCalls capacity calls).allocate node = .ok (.fresh handle, after) →
        (afterCalls capacity calls).contains handle = false ∧
          ∀ other, after.node? other =
            if other = handle then some node else (afterCalls capacity calls).node? other := by
  have hwhole : (afterCalls capacity calls).Whole := (whole_empty capacity).foldl_call calls
  exact ⟨hwhole.consistent, foldl_call_capacity _ calls, fun _ => hwhole.toNat_ofNat,
    fun _ _ _ => Coherent.node?_injective hwhole, fun _ _ _ => Coherent.node?_of_fresh hwhole⟩

end Arena

end ExprHeap
