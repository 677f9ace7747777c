import ExprHeap.Proofs.Renaming
import ExprHeap.Proofs.Representation
import ExprHeap.Proofs.Sweep

/-!
# Twin arenas

An arena that has been in use and was cleared, and one that is new, go through the same operations.
As long as they do they are twins (`Arena.Twins`): slot for slot they have corresponding generations
and entries, and the vacant slots of the one are those of the other on top of those that the other
has not come to yet.

Every operation keeps twins twins and answers with corresponding handles.  Allocating takes the
same slot in both, from the stack in the cleared arena where the new one has to make a slot, up to
the number of slots that were stacked when the arena was cleared.  With `2 ^ 32` slots that number
is zero; then both make slots, and the indices of the cleared arena start again with zero.

The maps of nodes and the counts of slots are not compared directly.  What they hold follows from
the coherence of either arena.
-/

namespace ExprHeap

/-! ### Slots of a table -/

namespace Table

variable {table : Table}

theorem generation_eq_slot (table : Table) (index : UInt32) :
    table.generation index = (table.slot index).generation := by
  unfold generation slot
  cases table[index.toNat]? <;> rfl

/-- The entry that a handle names, read off its slot, which may be a fresh one. -/
theorem entryOf?_eq_slot (table : Table) (handle : Handle) : table.entryOf? handle =
    if (table.slot handle.index).generation = handle.generation then
      (table.slot handle.index).entry
    else none := by
  unfold entryOf? slot
  cases table[handle.index.toNat]? with
  | none => exact (ite_self none).symm
  | some slot => rfl

theorem slot_occupy {index : UInt32} (hindex : index.toNat < table.size) (entry : Entry)
    (other : UInt32) : (table.occupy index entry).slot other =
      if index = other then (table.slot other).occupied entry else table.slot other := by
  unfold slot
  rw [getElem?_occupy]
  by_cases hsame : index = other
  · subst hsame
    rw [if_pos rfl, if_pos rfl, Array.getElem?_eq_getElem hindex]
    rfl
  · rw [if_neg hsame, if_neg fun h => hsame (UInt32.toNat_inj.mp h)]

/-! ### Tables of twins -/

/-- Slot for slot the tables correspond to each other. -/
def Twins (past : Past) (new used : Table) : Prop :=
  ∀ index, used.slot index = past.slot index (new.slot index)

namespace Twins

variable {past : Past} {new used : Table}

theorem entryOf? (htwins : Twins past new used) (handle : Handle) :
    used.entryOf? (past.handle handle) = (new.entryOf? handle).map past.entry := by
  rw [entryOf?_eq_slot, entryOf?_eq_slot, past.index_handle, htwins]
  have hgeneration : (past.slot handle.index (new.slot handle.index)).generation =
      (past.handle handle).generation ↔
        (new.slot handle.index).generation = handle.generation :=
    (agedFrom_injective (past.start_ne_zero handle.index)).eq_iff
  by_cases hsame : (new.slot handle.index).generation = handle.generation
  · rw [if_pos (hgeneration.mpr hsame), if_pos hsame]
    rfl
  · rw [if_neg (hgeneration.not.mpr hsame), if_neg hsame]
    rfl

/-- No handle to the used table names an entry but those that correspond to one of the new. -/
theorem exists_of_entryOf? (htwins : Twins past new used) {handle : Handle} {entry : Entry}
    (hentry : used.entryOf? handle = some entry) : ∃ newHandle newEntry,
      new.entryOf? newHandle = some newEntry ∧ handle = past.handle newHandle ∧
        entry = past.entry newEntry := by
  let newHandle : Handle := ⟨handle.index, (new.slot handle.index).generation⟩
  have hhandle : handle = past.handle newHandle := by
    rw [entryOf?_eq_slot, htwins] at hentry
    split at hentry
    · rename_i hgeneration
      exact congrArg (Handle.mk handle.index) hgeneration.symm
    · cases hentry
  -- the slot has the same entry in both tables, under the generation that it has there
  rw [hhandle, htwins.entryOf?] at hentry
  obtain ⟨newEntry, hnewEntry, rfl⟩ := Option.map_eq_some_iff.mp hentry
  exact ⟨newHandle, newEntry, hnewEntry, hhandle, rfl⟩

theorem stamp (htwins : Twins past new used) {epoch : Nat} (hepoch : 0 < epoch)
    (index : UInt32) : Twins past (new.stamp index epoch)
      (used.stamp index (past.epochs + epoch)) := by
  intro other
  have hfresh (epoch : Nat) : Slot.fresh.stamped epoch = .fresh := rfl
  rw [Table.stamp, Table.stamp, slot_modify _ (hfresh _), slot_modify _ (hfresh _), htwins]
  split
  · exact (past.slot_stamped other _ hepoch).symm
  · rfl

/-- **The traversals stamp corresponding entries.** -/
theorem shadeStack (htwins : Twins past new used) {epoch : Nat} (hepoch : 0 < epoch)
    (stack : List Handle) : Twins past (new.shadeStack epoch stack)
      (used.shadeStack (past.epochs + epoch) (stack.map past.handle)) := by
  -- the cases are those of the new table, and each is the same case of the used one
  fun_induction Table.shadeStack epoch new stack generalizing used with
  | case1 new =>
      rw [List.map_nil, Table.shadeStack]
      exact htwins
  | case2 new top rest hentry ih =>
      have hused : used.entryOf? (past.handle top) = none := by
        rw [htwins.entryOf?, hentry]
        rfl
      rw [List.map_cons, shadeStack_cons_of_not_unkept (not_unkept_of_missing hused)]
      exact ih htwins
  | case3 new top rest entry hentry hkept ih =>
      have hused : used.entryOf? (past.handle top) = some (past.entry entry) := by
        rw [htwins.entryOf?, hentry]
        rfl
      have hstill := past.entry_isKept entry hepoch ▸ hkept
      rw [List.map_cons, shadeStack_cons_of_not_unkept (not_unkept_of_kept hused hstill)]
      exact ih htwins
  | case4 new top rest entry hentry hkept ih =>
      have hused : used.entryOf? (past.handle top) = some (past.entry entry) := by
        rw [htwins.entryOf?, hentry]
        rfl
      have hunkept : used.Unkept (past.epochs + epoch) (past.handle top) (past.entry entry) :=
        ⟨hused, by rw [past.entry_isKept entry hepoch]; exact Bool.eq_false_iff.mpr hkept⟩
      rw [List.map_cons, shadeStack_cons_of_unkept hunkept]
      have hstack : (past.entry entry).node.children ++ rest.map past.handle =
          (entry.node.children ++ rest).map past.handle := List.map_append.symm
      rw [hstack]
      exact ih (htwins.stamp hepoch top.index)

end Twins

end Table

namespace Arena

/-! ### Placing a node -/

/-- The index of the slot that the next new node takes. -/
def nextIndex (arena : Arena) : UInt32 :=
  arena.vacant.headD (UInt32.ofNat arena.table.size)

/-- What placing a node does: it puts the node into the next slot, after making that slot if none is
vacant. -/
theorem place_eq {arena : Arena} {issued : Nat} (hcoherent : arena.Coherent issued) (node : Node) :
    ∃ table : Table, (∀ index, table.slot index = arena.table.slot index) ∧
      arena.nextIndex.toNat < table.size ∧
      table.size = arena.table.size + (if arena.vacant = [] then 1 else 0) ∧
      arena.place node = (⟨arena.nextIndex, (arena.table.slot arena.nextIndex).generation⟩,
        { arena with
          table := table.occupy arena.nextIndex ⟨node, arena.epoch, 0⟩
          vacant := arena.vacant.tail
          interned := arena.interned.insert node
            ⟨arena.nextIndex, (arena.table.slot arena.nextIndex).generation⟩
          size := arena.size + 1 }) := by
  cases hvacant : arena.vacant with
  | nil =>
      have hindex : arena.nextIndex = UInt32.ofNat arena.table.size := by
        rw [nextIndex, hvacant]
        rfl
      refine ⟨arena.table.push .fresh, arena.table.slot_push_fresh, ?_, ?_, ?_⟩
      · rw [hindex, Array.size_push, UInt32.toNat_ofNat']
        exact Nat.lt_succ_of_le (Nat.mod_le _ _)
      · rw [Array.size_push, if_pos rfl]
      · rw [hindex, ← Table.slot_push_fresh, ← Table.generation_eq_slot]
        simp only [place, takeVacant, hvacant, List.tail_nil]
  | cons index rest =>
      have hindex : arena.nextIndex = index := by
        rw [nextIndex, hvacant]
        rfl
      refine ⟨arena.table, fun _ => rfl, ?_, ?_, ?_⟩
      · have hmem : index ∈ arena.vacant := hvacant ▸ List.mem_cons_self
        rw [hindex]
        exact (Array.getElem?_eq_some_iff.mp (hcoherent.slot_of_vacant hmem)).1
      · rw [if_neg (List.cons_ne_nil _ _), Nat.add_zero]
      · rw [hindex, ← Table.generation_eq_slot]
        simp only [place, takeVacant, hvacant, List.tail_cons]

/-- No slot is in generation zero. -/
theorem Coherent.generation_slot_ne_zero {arena : Arena} {issued : Nat}
    (hcoherent : arena.Coherent issued) (index : UInt32) :
    (arena.table.slot index).generation ≠ 0 := by
  unfold Table.slot
  cases hslot : arena.table[index.toNat]? with
  | none => decide
  | some slot => exact hcoherent.generation_ne_zero _ slot hslot

/-! ### Twins -/

/-- The indices from `start` up to but not including `stop`, which no slot of the new arena has come
to yet. -/
def ahead (start stop : Nat) : List UInt32 :=
  (List.range' start (stop - start)).map UInt32.ofNat

/-- The used arena does in its slots what the new one does.  At its clearing `reused` slots were
stacked. -/
structure Twins (past : Past) (reused : Nat) (new used : Arena) : Prop where
  table : Table.Twins past new.table used.table
  vacant_eq : used.vacant = new.vacant ++ ahead new.table.size reused
  size_eq : used.size = new.size
  capacity_eq : used.capacity = new.capacity
  epoch_eq : used.epoch = past.epochs + new.epoch
  cycleActive_eq : used.cycleActive = new.cycleActive
  begun : new.cycleActive = true → 0 < new.epoch
  whole : new.Whole
  coherent : ∃ issued, used.Coherent issued

namespace Twins

variable {past : Past} {reused : Nat} {new used : Arena}

theorem entryOf? (htwins : Twins past reused new used) (handle : Handle) :
    used.table.entryOf? (past.handle handle) = (new.table.entryOf? handle).map past.entry :=
  htwins.table.entryOf? handle

theorem node? (htwins : Twins past reused new used) (handle : Handle) :
    used.node? (past.handle handle) = (new.node? handle).map past.node := by
  unfold Arena.node?
  rw [htwins.entryOf?, Option.map_map, Option.map_map]
  rfl

theorem contains (htwins : Twins past reused new used) (handle : Handle) :
    used.contains (past.handle handle) = new.contains handle := by
  unfold Arena.contains
  rw [htwins.entryOf?, Option.isSome_map]

/-- The slots issued are those that were stacked, and those made since. -/
theorem coherent_used (htwins : Twins past reused new used) :
    used.Coherent (max reused new.table.size) := by
  obtain ⟨issued, hcoherent⟩ := htwins.coherent
  have hnew := Coherent.size_add_vacant htwins.whole
  have hused := hcoherent.size_add_vacant
  rw [htwins.size_eq, htwins.vacant_eq, List.length_append, ahead, List.length_map,
    List.length_range'] at hused
  have hissued : issued = max reused new.table.size := by omega
  exact hissued ▸ hcoherent

/-- **Corresponding nodes are interned alike.** -/
theorem interned (htwins : Twins past reused new used) (node : Node) :
    used.interned[past.node node]? = new.interned[node]?.map past.handle := by
  obtain ⟨_, hcoherent⟩ := htwins.coherent
  cases hinterned : new.interned[node]? with
  | some handle =>
      have hnode := (Coherent.interned_iff htwins.whole node handle).mp hinterned
      refine (hcoherent.interned_iff _ _).mpr ?_
      rw [htwins.node?, hnode]
      rfl
  | none =>
      cases hother : used.interned[past.node node]? with
      | none => rfl
      | some handle =>
          -- the handle of an equal node would correspond to one that is interned
          have hnode := (hcoherent.interned_iff _ _).mp hother
          obtain ⟨entry, hentry, hentryNode⟩ := node?_eq_some_iff.mp hnode
          obtain ⟨newHandle, newEntry, hnewEntry, rfl, rfl⟩ :=
            htwins.table.exists_of_entryOf? hentry
          have hsame : newEntry.node = node := past.node_injective hentryNode
          have hnew : new.node? newHandle = some node :=
            node?_eq_some_iff.mpr ⟨newEntry, hnewEntry, hsame⟩
          rw [← Coherent.interned_iff htwins.whole, hinterned] at hnew
          cases hnew

/-! ### Cycles and shading -/

theorem beginCycle (htwins : Twins past reused new used) :
    Twins past reused new.beginCycle used.beginCycle :=
  { htwins with
    epoch_eq := congrArg (· + 1) htwins.epoch_eq
    cycleActive_eq := rfl
    begun := fun _ => Nat.succ_pos _
    whole := Coherent.beginCycle htwins.whole
    coherent := htwins.coherent.imp fun _ h => h.beginCycle }

theorem endCycle (htwins : Twins past reused new used) :
    Twins past reused new.endCycle used.endCycle :=
  { htwins with
    cycleActive_eq := rfl
    begun := fun hactive => nomatch hactive
    whole := Coherent.endCycle htwins.whole
    coherent := htwins.coherent.imp fun _ h => h.endCycle }

theorem shade (htwins : Twins past reused new used) (root : Handle) :
    Twins past reused (new.shade root) (used.shade (past.handle root)) where
  table := by
    unfold Arena.shade
    rw [htwins.cycleActive_eq]
    split
    · rename_i hactive
      rw [htwins.epoch_eq]
      exact htwins.table.shadeStack (htwins.begun hactive) [root]
    · exact htwins.table
  vacant_eq := by simpa using htwins.vacant_eq
  size_eq := by simpa using htwins.size_eq
  capacity_eq := by simpa using htwins.capacity_eq
  epoch_eq := by simpa using htwins.epoch_eq
  cycleActive_eq := by simpa using htwins.cycleActive_eq
  begun := by simpa using htwins.begun
  whole := htwins.whole.shade root
  coherent := htwins.coherent.imp fun _ h => h.shade _

theorem foldl_shade (htwins : Twins past reused new used) (roots : List Handle) :
    Twins past reused (roots.foldl Arena.shade new)
      ((roots.map past.handle).foldl Arena.shade used) := by
  induction roots generalizing new used with
  | nil => exact htwins
  | cons root rest ih => exact ih (htwins.shade root)

/-! ### Allocating -/

theorem ahead_of_lt {start stop : Nat} (hlt : start < stop) :
    ahead start stop = UInt32.ofNat start :: ahead (start + 1) stop := by
  have hlength : stop - start = stop - (start + 1) + 1 := by omega
  rw [ahead, hlength, List.range'_succ]
  rfl

theorem ahead_of_le {start stop : Nat} (hle : stop ≤ start) : ahead start stop = [] := by
  rw [ahead, Nat.sub_eq_zero_of_le hle]
  rfl

/-- **The next slot is the same**: the top of the stack, one that the used arena has stacked and the
new one makes, or one that both make. -/
theorem nextIndex_eq (htwins : Twins past reused new used) (hroom : new.size < new.capacity) :
    used.nextIndex = new.nextIndex ∧
      used.vacant.tail = new.vacant.tail ++
        ahead (new.table.size + if new.vacant = [] then 1 else 0) reused := by
  have hvacant := htwins.vacant_eq
  unfold nextIndex
  cases hnew : new.vacant with
  | cons index rest =>
      rw [hnew, List.cons_append] at hvacant
      rw [hvacant, if_neg (List.cons_ne_nil _ _)]
      exact ⟨rfl, rfl⟩
  | nil =>
      rw [hnew, List.nil_append] at hvacant
      rw [if_pos rfl, List.tail_nil, List.nil_append]
      rcases Nat.lt_or_ge new.table.size reused with hlt | hge
      · rw [hvacant, ahead_of_lt hlt]
        exact ⟨rfl, rfl⟩
      · rw [ahead_of_le hge] at hvacant
        -- with no slot on either stack both tables grow, and from the same size
        have husedRoom : used.size < used.capacity := by
          rw [htwins.size_eq, htwins.capacity_eq]
          exact hroom
        have husedNext := htwins.coherent_used.toNat_nextIndex hvacant husedRoom
        have hnewNext := Coherent.toNat_nextIndex htwins.whole hnew hroom
        rw [Nat.max_eq_right hge, ← hnewNext] at husedNext
        rw [hvacant, ahead_of_le (Nat.le_succ_of_le hge)]
        exact ⟨UInt32.toNat_inj.mp husedNext, rfl⟩

theorem place (htwins : Twins past reused new used) (hroom : new.size < new.capacity) {node : Node}
    (hnew : new.interned[node]? = none) :
    (used.place (past.node node)).1 = past.handle (new.place node).1 ∧
      Twins past reused (new.place node).2 (used.place (past.node node)).2 := by
  have hwhole := htwins.whole.place hroom hnew
  have hcoherent : ∃ issued, (used.place (past.node node)).2.Coherent issued := by
    refine (htwins.coherent_used.place ?_ ?_).1
    · rw [htwins.size_eq, htwins.capacity_eq]
      exact hroom
    · rw [htwins.interned, hnew]
      rfl
  obtain ⟨hindex, htail⟩ := htwins.nextIndex_eq hroom
  -- what is placed is told by the slots alone, so that a table that grows needs no case of its own
  obtain ⟨newTable, hnewSlot, hnewIndex, hnewSize, hnewPlace⟩ := place_eq htwins.whole node
  obtain ⟨usedTable, husedSlot, husedIndex, -, husedPlace⟩ :=
    place_eq htwins.coherent_used (past.node node)
  rw [hnewPlace] at hwhole
  rw [husedPlace] at hcoherent
  rw [hnewPlace, husedPlace]
  constructor
  · show Handle.mk _ _ = Handle.mk _ _
    rw [hindex, htwins.table]
    rfl
  · refine
      { table := fun index => ?_
        vacant_eq := ?_
        size_eq := congrArg (· + 1) htwins.size_eq
        capacity_eq := htwins.capacity_eq
        epoch_eq := htwins.epoch_eq
        cycleActive_eq := htwins.cycleActive_eq
        begun := htwins.begun
        whole := hwhole
        coherent := hcoherent }
    · rw [Table.slot_occupy husedIndex, Table.slot_occupy hnewIndex, husedSlot, hnewSlot, hindex,
        htwins.table, htwins.epoch_eq]
      split
      · rw [past.slot_occupied]
        rfl
      · rfl
    · show used.vacant.tail = new.vacant.tail ++ ahead (newTable.occupy _ _).size reused
      rw [Table.occupy, Array.size_modify, hnewSize]
      exact htail

/-- **Twins answer alike to an allocation**, and stay twins. -/
theorem allocate (htwins : Twins past reused new used) (node : Node) :
    (∃ allocation newAfter usedAfter, new.allocate node = .ok (allocation, newAfter) ∧
        used.allocate (past.node node) = .ok (past.allocation allocation, usedAfter) ∧
        Twins past reused newAfter usedAfter) ∨
      ∃ error usedError, new.allocate node = .error error ∧
        used.allocate (past.node node) = .error usedError ∧ usedError.unaged = error.unaged := by
  have harity : (past.node node).children.length = node.children.length := List.length_map _
  have hfind : (past.node node).children.find? (!used.contains ·) =
      (node.children.find? (!new.contains ·)).map past.handle := by
    have hmissing : (fun handle => !used.contains handle) ∘ past.handle =
        fun handle => !new.contains handle :=
      funext fun handle => congrArg (!·) (htwins.contains handle)
    rw [← hmissing]
    exact List.find?_map
  unfold Arena.allocate
  rw [harity, hfind, htwins.interned, htwins.capacity_eq, htwins.size_eq]
  -- both arenas make the same checks, and what corresponds passes or fails alike
  by_cases hlength : node.children.length ≠ node.op.arity
  · exact .inr ⟨_, _, if_pos hlength, if_pos hlength, rfl⟩
  rw [if_neg hlength]
  have husedLength : ¬ node.children.length ≠ (past.node node).op.arity := hlength
  rw [if_neg husedLength]
  cases node.children.find? (!new.contains ·) with
  | some child => exact .inr ⟨_, _, rfl, rfl, past.unaged_invalidHandle child⟩
  | none =>
    cases hinterned : new.interned[node]? with
    | some handle => exact .inl ⟨_, _, _, rfl, rfl, htwins.shade handle⟩
    | none =>
      dsimp only [Option.map_none]
      by_cases hfull : new.capacity ≤ new.size
      · exact .inr ⟨_, _, if_pos hfull, if_pos hfull, rfl⟩
      · rw [if_neg hfull, if_neg hfull]
        have hshaded := htwins.foldl_shade node.children
        obtain ⟨hhandle, hplaced⟩ := hshaded.place
          (by
            rw [foldl_shade_eq Arena.size shade_size, foldl_shade_eq Arena.capacity shade_capacity]
            exact Nat.lt_of_not_le hfull)
          (by rwa [foldl_shade_eq Arena.interned shade_interned])
        refine .inl ⟨_, _, _, rfl, ?_, hplaced⟩
        rw [Past.allocation, ← hhandle]
        rfl

/-! ### Taking away -/

theorem remove (htwins : Twins past reused new used) {handle : Handle} {entry : Entry}
    (hentry : new.table.entryOf? handle = some entry) :
    Twins past reused (new.remove handle entry.node)
      (used.remove (past.handle handle) (past.node entry.node)) := by
  have husedEntry : used.table.entryOf? (past.handle handle) = some (past.entry entry) := by
    rw [htwins.entryOf?, hentry]
    rfl
  refine
    { table := fun index => ?_
      vacant_eq := ?_
      size_eq := congrArg (· - 1) htwins.size_eq
      capacity_eq := htwins.capacity_eq
      epoch_eq := htwins.epoch_eq
      cycleActive_eq := htwins.cycleActive_eq
      begun := htwins.begun
      whole := htwins.whole.remove hentry
      coherent := htwins.coherent.imp fun _ h => h.remove husedEntry }
  · rw [slot_remove, slot_remove, past.index_handle, htwins.table]
    split
    · exact (past.slot_vacated index (Coherent.generation_slot_ne_zero htwins.whole index)).symm
    · rfl
  · show handle.index :: used.vacant =
      handle.index :: new.vacant ++ ahead (Array.modify _ _ _).size reused
    rw [Array.size_modify, htwins.vacant_eq]
    rfl

variable {epoch : Nat} {isLive usedIsLive : Handle → Bool}

/-- What nothing keeps in the one arena, nothing keeps in the other. -/
theorem reclaimable_iff (htwins : Twins past reused new used) (hepoch : 0 < epoch)
    {handle : Handle}
    (hlive : new.contains handle = true → usedIsLive (past.handle handle) = isLive handle) :
    used.Reclaimable (past.epochs + epoch) usedIsLive (past.handle handle) ↔
      new.Reclaimable epoch isLive handle := by
  unfold Reclaimable
  rw [htwins.entryOf?]
  cases hentry : new.table.entryOf? handle with
  | none => simp
  | some entry =>
      have hcontains : new.contains handle = true := contains_of_entryOf? hentry
      have hborn : (past.entry entry).born < past.epochs + epoch ↔ entry.born < epoch := by
        show past.epochs + entry.born < _ ↔ _
        omega
      simp only [Option.map_some, Option.some.injEq, exists_eq_left', hborn, ne_eq,
        past.entry_shaded_eq_iff entry hepoch, hlive hcontains]

/-- **A slot is reclaimed in both arenas or in neither.** -/
theorem reclaim (htwins : Twins past reused new used) (hepoch : 0 < epoch)
    (hlive : ∀ handle, new.contains handle = true →
      usedIsLive (past.handle handle) = isLive handle) (index : Nat) :
    (used.reclaim (past.epochs + epoch) usedIsLive index).1 =
        (new.reclaim epoch isLive index).1.map past.handle ∧
      Twins past reused (new.reclaim epoch isLive index).2
        (used.reclaim (past.epochs + epoch) usedIsLive index).2 := by
  have hreclaimable {handle : Handle} := htwins.reclaimable_iff hepoch (hlive handle)
  -- what one sweep takes out of the slot corresponds to what the other takes, if either takes any
  rcases Coherent.reclaim_cases htwins.whole epoch isLive index with
    ⟨hkept, hnone⟩ | ⟨handle, entry, hindex, hentry, hnewReclaimable, htaken⟩
  · rcases htwins.coherent_used.reclaim_cases (past.epochs + epoch) usedIsLive index with
      ⟨husedKept, -⟩ | ⟨handle, entry, hindex, hentry, husedReclaimable, -⟩
    · rw [hkept, husedKept]
      exact ⟨rfl, htwins⟩
    · obtain ⟨newHandle, _, -, rfl, -⟩ := htwins.table.exists_of_entryOf? hentry
      exact absurd (hreclaimable.mp husedReclaimable) (hnone newHandle hindex)
  · have husedReclaimable := hreclaimable.mpr hnewReclaimable
    rcases htwins.coherent_used.reclaim_cases (past.epochs + epoch) usedIsLive index with
      ⟨-, hnone⟩ | ⟨usedHandle, usedEntry, husedIndex, husedEntry, -, husedTaken⟩
    · exact absurd husedReclaimable (hnone (past.handle handle) hindex)
    · -- there is one node in the slot
      obtain ⟨newHandle, newEntry, hnewEntry, rfl, rfl⟩ :=
        htwins.table.exists_of_entryOf? husedEntry
      obtain rfl := Table.entryOf?_index_injective hnewEntry hentry
        (UInt32.toNat_inj.mp (husedIndex.trans hindex.symm))
      obtain rfl := Option.some.inj (hnewEntry.symm.trans hentry)
      rw [htaken, husedTaken]
      exact ⟨rfl, htwins.remove hentry⟩

end Twins

end Arena

/-! ### Sweeping -/

namespace Sweep

variable {past : Past} {reused epoch : Nat} {isLive usedIsLive : Handle → Bool} {new used : Sweep}

/-- Sweeps of twins that have taken the nodes of corresponding handles away. -/
structure Twins (past : Past) (reused : Nat) (new used : Sweep) : Prop where
  arena : Arena.Twins past reused new.arena used.arena
  freed_eq : used.freed = new.freed.map past.handle

theorem Twins.visit (htwins : Twins past reused new used) (hepoch : 0 < epoch)
    (hlive : ∀ handle, new.arena.contains handle = true →
      usedIsLive (past.handle handle) = isLive handle) (index : Nat) :
    Twins past reused (new.visit epoch isLive index)
      (used.visit (past.epochs + epoch) usedIsLive index) := by
  obtain ⟨hfreed, harena⟩ := htwins.arena.reclaim hepoch hlive index
  unfold Sweep.visit
  rcases hnew : new.arena.reclaim epoch isLive index with ⟨_ | handle, after⟩
  · rcases hused : used.arena.reclaim (past.epochs + epoch) usedIsLive index with
      ⟨_ | other, usedAfter⟩
    · rw [hnew, hused] at harena
      exact ⟨harena, htwins.freed_eq⟩
    · rw [hnew, hused] at hfreed
      cases hfreed
  · rcases hused : used.arena.reclaim (past.epochs + epoch) usedIsLive index with
      ⟨_ | other, usedAfter⟩
    · rw [hnew, hused] at hfreed
      cases hfreed
    · rw [hnew, hused] at hfreed harena
      refine ⟨harena, ?_⟩
      rw [htwins.freed_eq, Option.some.inj hfreed, Array.map_push]

theorem Twins.foldl_visit (htwins : Twins past reused new used) (hepoch : 0 < epoch)
    (hlive : ∀ handle, new.arena.contains handle = true →
      usedIsLive (past.handle handle) = isLive handle) (indices : List Nat) :
    Twins past reused (indices.foldl (Sweep.visit epoch isLive) new)
      (indices.foldl (Sweep.visit (past.epochs + epoch) usedIsLive) used) := by
  induction indices generalizing new used with
  | nil => exact htwins
  | cons index rest ih =>
      refine ih (htwins.visit hepoch hlive index) fun handle hcontains => hlive handle ?_
      rw [arena_visit, Arena.contains_iff] at hcontains
      obtain ⟨node, hnode⟩ := hcontains
      exact Arena.contains_of_node? (Arena.Coherent.node?_of_reclaim htwins.arena.whole hnode)

/-- Visits to slots where nothing is reclaimable change nothing. -/
theorem foldl_visit_of_none {issued : Nat} (hcoherent : new.arena.Coherent issued)
    {indices : List Nat} (hnone : ∀ index ∈ indices, ∀ handle : Handle,
      handle.index.toNat = index → ¬ new.arena.Reclaimable epoch isLive handle) :
    indices.foldl (Sweep.visit epoch isLive) new = new := by
  induction indices with
  | nil => rfl
  | cons index rest ih =>
      have hvisit : new.visit epoch isLive index = new := by
        unfold Sweep.visit
        rcases hcoherent.reclaim_cases epoch isLive index with
          ⟨hkept, -⟩ | ⟨handle, entry, hindex, -, hreclaimable, -⟩
        · rw [hkept]
        · exact absurd hreclaimable (hnone index List.mem_cons_self handle hindex)
      rw [List.foldl_cons, hvisit]
      exact ih fun other hother => hnone other (List.mem_cons_of_mem _ hother)

end Sweep

namespace Arena

/-- Whatever stands in a slot beyond the high water mark of a cycle has been born in it or later. -/
def YoungBeyond (arena : Arena) (epoch highWater : Nat) : Prop :=
  ∀ handle entry, arena.table.entryOf? handle = some entry →
    highWater ≤ handle.index.toNat → epoch ≤ entry.born

/-- What reclaiming leaves was there before. -/
theorem Coherent.entryOf?_of_reclaimAll {arena : Arena} {issued epoch : Nat}
    {isLive : Handle → Bool} (hcoherent : arena.Coherent issued) {indices : List Nat}
    {handle : Handle} {entry : Entry}
    (hentry : (arena.reclaimAll epoch isLive indices).table.entryOf? handle = some entry) :
    arena.table.entryOf? handle = some entry := by
  induction indices generalizing arena with
  | nil => exact hentry
  | cons index rest ih =>
      have hbefore := ih (hcoherent.reclaim epoch isLive index) hentry
      rw [hcoherent.entryOf?_reclaim] at hbefore
      split at hbefore
      · cases hbefore
      · exact hbefore

end Arena

/-- **Twins are swept alike**, although there may be more slots in the one that has been in use:
nothing beyond the high water mark of the new one is reclaimable. -/
theorem Store.sweep_twins {past : Past} {reused epoch highWater usedHighWater : Nat}
    {isLive usedIsLive : Handle → Bool} {new used : Store}
    (htwins : Arena.Twins past reused new.arena used.arena) (hepoch : 0 < epoch)
    (hlive : ∀ handle, new.arena.contains handle = true →
      usedIsLive (past.handle handle) = isLive handle)
    (hle : highWater ≤ usedHighWater) (hyoung : new.arena.YoungBeyond epoch highWater)
    (batch usedBatch : Nat) :
    (used.sweep usedBatch (past.epochs + epoch) usedIsLive 0 usedHighWater).1 =
        (new.sweep batch epoch isLive 0 highWater).1.map past.handle ∧
      Arena.Twins past reused (new.sweep batch epoch isLive 0 highWater).2.arena
        (used.sweep usedBatch (past.epochs + epoch) usedIsLive 0 usedHighWater).2.arena := by
  have hsweeps : Sweep.Twins past reused ⟨new.arena, #[]⟩ ⟨used.arena, #[]⟩ := ⟨htwins, by simp⟩
  have hswept := hsweeps.foldl_visit hepoch hlive (List.range' 0 highWater)
  have hindices : List.range' 0 usedHighWater =
      List.range' 0 highWater ++ List.range' highWater (usedHighWater - highWater) := by
    rw [← Nat.add_sub_cancel' hle, ← List.range'_append_1, Nat.zero_add, Nat.add_sub_cancel_left]
  -- beyond the lower mark no node is older than the cycle, and younger ones no sweep takes
  have hbeyond : (List.range' 0 usedHighWater).foldl
        (Sweep.visit (past.epochs + epoch) usedIsLive) ⟨used.arena, #[]⟩ =
      (List.range' 0 highWater).foldl
        (Sweep.visit (past.epochs + epoch) usedIsLive) ⟨used.arena, #[]⟩ := by
    rw [hindices, List.foldl_append]
    refine Sweep.foldl_visit_of_none hswept.arena.coherent_used ?_
    rintro index hindex handle rfl ⟨usedEntry, husedEntry, hborn, -⟩
    obtain ⟨newHandle, newEntry, hnewEntry, rfl, rfl⟩ :=
      hswept.arena.table.exists_of_entryOf? husedEntry
    rw [Sweep.arena_foldl_visit] at hnewEntry
    have hentry := Arena.Coherent.entryOf?_of_reclaimAll htwins.whole hnewEntry
    have hold := hyoung newHandle newEntry hentry (List.mem_range'_1.mp hindex).1
    have hless : past.epochs + newEntry.born < past.epochs + epoch := hborn
    omega
  unfold Store.sweep
  dsimp only
  rw [Sweep.foldl_visitSpan, Sweep.foldl_visitSpan, Nat.sub_zero, Nat.sub_zero, hbeyond]
  exact ⟨hswept.freed_eq, hswept.arena⟩

end ExprHeap
