import ExprHeap.Proofs.Coherence

/-!
# What allocating and reclaiming do

`allocate_cases` says once what a successful allocation can do: it shares the
node that is there and shades it, or it shades the children and places a new
node.  `reclaim_cases` says the same of a slot that the sweep goes over.  Every
invariant of the arena is derived from these two and from the equations for the
entries, `Coherent.place` and `entryOf?_remove`.

A request that is turned down leaves the arena as it is; `Arena.request` is the
arena after a request for a node, whatever the answer.
-/

namespace ExprHeap

namespace Arena

variable {arena : Arena} {issued : Nat}

/-! ### Shading several nodes -/

/-- What shading one node does not change, shading several does not change. -/
theorem foldl_shade_eq {α : Type} (view : Arena → α)
    (hview : ∀ arena root, view (arena.shade root) = view arena) (roots : List Handle)
    (arena : Arena) : view (roots.foldl shade arena) = view arena := by
  induction roots generalizing arena with
  | nil => rfl
  | cons root rest ih => rw [List.foldl_cons, ih, hview]

theorem Coherent.foldl_shade (hcoherent : arena.Coherent issued) (roots : List Handle) :
    (roots.foldl Arena.shade arena).Coherent issued := by
  induction roots generalizing arena with
  | nil => exact hcoherent
  | cons root rest ih => exact ih (hcoherent.shade root)

/-! ### Placing a node -/

@[simp] theorem place_epoch (arena : Arena) (node : Node) :
    (arena.place node).2.epoch = arena.epoch := by
  cases hvacant : arena.vacant <;> simp only [place, takeVacant, hvacant]

@[simp] theorem place_cycleActive (arena : Arena) (node : Node) :
    (arena.place node).2.cycleActive = arena.cycleActive := by
  cases hvacant : arena.vacant <;> simp only [place, takeVacant, hvacant]

/-- Placing a new node where there is room gives it a handle that named nothing, and changes
nothing about the other entries. -/
theorem Coherent.place (hcoherent : arena.Coherent issued) (hroom : arena.size < arena.capacity)
    {node : Node} (hnew : arena.interned[node]? = none) :
    (∃ issued', (arena.place node).2.Coherent issued') ∧
      arena.table.entryOf? (arena.place node).1 = none ∧
      ∀ other, (arena.place node).2.table.entryOf? other =
        if other = (arena.place node).1 then some ⟨node, arena.epoch, 0⟩
        else arena.table.entryOf? other := by
  cases hvacant : arena.vacant with
  | cons index rest =>
      have hindex : index ∈ arena.vacant := by
        rw [hvacant]
        exact List.mem_cons_self
      have hplace : arena.place node = (⟨index, arena.table.generation index⟩, { arena with
          table := arena.table.occupy index ⟨node, arena.epoch, 0⟩
          vacant := rest
          interned := arena.interned.insert node ⟨index, arena.table.generation index⟩
          size := arena.size + 1 }) := by
        simp only [Arena.place, takeVacant, hvacant]
      rw [hplace]
      exact ⟨⟨issued, hcoherent.fill hvacant ⟨node, arena.epoch, 0⟩ hnew
        (Nat.le_refl _) (Nat.zero_le _)⟩, hcoherent.entryOf?_of_vacant hindex,
        hcoherent.entryOf?_fill hindex _⟩
  | nil =>
      -- a new slot is one that went onto the stack a moment ago
      let index := UInt32.ofNat arena.table.size
      let grown : Arena := { arena with table := arena.table.push .fresh, vacant := [index] }
      have hgrown : grown.Coherent (issued + 1) := hcoherent.grow hvacant hroom
      have hplace : arena.place node = (⟨index, grown.table.generation index⟩, { grown with
          table := grown.table.occupy index ⟨node, grown.epoch, 0⟩
          vacant := []
          interned := grown.interned.insert node ⟨index, grown.table.generation index⟩
          size := grown.size + 1 }) := by
        simp only [Arena.place, takeVacant, hvacant, grown, index]
      have hindex : index ∈ grown.vacant := List.mem_singleton_self _
      have hentry : ∀ other, grown.table.entryOf? other = arena.table.entryOf? other :=
        Table.entryOf?_push_fresh arena.table
      rw [hplace]
      refine ⟨⟨issued + 1, hgrown.fill rfl ⟨node, grown.epoch, 0⟩ hnew
        (Nat.le_refl _) (Nat.zero_le _)⟩, ?_, ?_⟩
      · rw [← hentry]
        exact hgrown.entryOf?_of_vacant hindex
      · intro other
        rw [← hentry]
        exact hgrown.entryOf?_fill hindex _ other

/-! ### Allocating -/

/-- What a successful allocation can do. -/
theorem allocate_cases {node : Node} {allocation : Allocation} {after : Arena}
    (hallocate : arena.allocate node = .ok (allocation, after)) :
    node.children.length = node.op.arity ∧
      (∀ child ∈ node.children, arena.contains child = true) ∧
      ((∃ handle, allocation = .shared handle ∧ arena.interned[node]? = some handle ∧
          after = arena.shade handle) ∨
        (arena.interned[node]? = none ∧ arena.size < arena.capacity ∧
          allocation = .fresh ((node.children.foldl shade arena).place node).1 ∧
          after = ((node.children.foldl shade arena).place node).2)) := by
  unfold allocate at hallocate
  split at hallocate
  · cases hallocate
  rename_i harity
  split at hallocate
  · cases hallocate
  rename_i hfind
  refine ⟨not_not.mp harity, ?_, ?_⟩
  · simpa using hfind
  split at hallocate
  · rename_i handle hinterned
    simp only [Except.ok.injEq, Prod.mk.injEq] at hallocate
    exact .inl ⟨handle, hallocate.1.symm, hinterned, hallocate.2.symm⟩
  · rename_i hinterned
    split at hallocate
    · cases hallocate
    · rename_i hroom
      simp only [Except.ok.injEq, Prod.mk.injEq] at hallocate
      exact .inr ⟨hinterned, Nat.lt_of_not_le hroom, hallocate.1.symm, hallocate.2.symm⟩

/-- A request for a node that is there is answered with it. -/
theorem allocate_shared {node : Node} {handle : Handle}
    (harity : node.children.length = node.op.arity)
    (hchildren : ∀ child ∈ node.children, arena.contains child = true)
    (hinterned : arena.interned[node]? = some handle) :
    arena.allocate node = .ok (.shared handle, arena.shade handle) := by
  have hfind : node.children.find? (!arena.contains ·) = none := by simpa using hchildren
  simp only [allocate, harity, ne_eq, not_true, if_false, hfind, hinterned]

/-- The arena after a request for a node, whatever the answer. -/
def request (arena : Arena) (node : Node) : Arena :=
  match arena.allocate node with
  | .ok (_, after) => after
  | .error _ => arena

theorem request_of_ok {node : Node} {allocation : Allocation} {after : Arena}
    (hallocate : arena.allocate node = .ok (allocation, after)) : arena.request node = after := by
  simp only [request, hallocate]

theorem request_of_error {node : Node} {error : HeapError}
    (hallocate : arena.allocate node = .error error) : arena.request node = arena := by
  simp only [request, hallocate]

/-- A request leaves the arena as it is, shades one node, or shades the children of a new node and
places it. -/
theorem request_steps (arena : Arena) (node : Node) :
    arena.request node = arena ∨ (∃ handle, arena.request node = arena.shade handle) ∨
      (node.children.foldl shade arena).interned[node]? = none ∧
        (node.children.foldl shade arena).size < (node.children.foldl shade arena).capacity ∧
        arena.request node = ((node.children.foldl shade arena).place node).2 := by
  cases hallocate : arena.allocate node with
  | error error => exact .inl (request_of_error hallocate)
  | ok answer =>
      obtain ⟨allocation, after⟩ := answer
      rw [request_of_ok hallocate]
      obtain ⟨-, -, ⟨handle, -, -, rfl⟩ | ⟨hnew, hroom, -, rfl⟩⟩ := allocate_cases hallocate
      · exact .inr (.inl ⟨handle, rfl⟩)
      · rw [foldl_shade_eq Arena.interned shade_interned, foldl_shade_eq Arena.size shade_size,
          foldl_shade_eq Arena.capacity shade_capacity]
        exact .inr (.inr ⟨hnew, hroom, rfl⟩)

@[simp] theorem request_epoch (arena : Arena) (node : Node) :
    (arena.request node).epoch = arena.epoch := by
  rcases arena.request_steps node with hsame | ⟨handle, hshade⟩ | ⟨-, -, hplace⟩
  · rw [hsame]
  · rw [hshade, shade_epoch]
  · rw [hplace, place_epoch, foldl_shade_eq Arena.epoch shade_epoch]

@[simp] theorem request_cycleActive (arena : Arena) (node : Node) :
    (arena.request node).cycleActive = arena.cycleActive := by
  rcases arena.request_steps node with hsame | ⟨handle, hshade⟩ | ⟨-, -, hplace⟩
  · rw [hsame]
  · rw [hshade, shade_cycleActive]
  · rw [hplace, place_cycleActive, foldl_shade_eq Arena.cycleActive shade_cycleActive]

/-- A request keeps the arena coherent. -/
theorem Coherent.request (hcoherent : arena.Coherent issued) (node : Node) :
    ∃ issued', (arena.request node).Coherent issued' := by
  rcases arena.request_steps node with hsame | ⟨handle, hshade⟩ | ⟨hnew, hroom, hplace⟩
  · rw [hsame]
    exact ⟨issued, hcoherent⟩
  · rw [hshade]
    exact ⟨issued, hcoherent.shade handle⟩
  · rw [hplace]
    exact ((hcoherent.foldl_shade node.children).place hroom hnew).1

/-- A new node gets a handle that named nothing, and leaves the nodes that were there. -/
theorem Coherent.allocate_fresh (hcoherent : arena.Coherent issued) {node : Node}
    {handle : Handle} {after : Arena}
    (hallocate : arena.allocate node = .ok (.fresh handle, after)) :
    arena.contains handle = false ∧ after.table.entryOf? handle = some ⟨node, arena.epoch, 0⟩ ∧
      ∀ other, other ≠ handle →
        after.table.entryOf? other =
          (node.children.foldl Arena.shade arena).table.entryOf? other := by
  obtain ⟨-, -, ⟨handle, hshared, -⟩ | ⟨hnew, hroom, hfresh, rfl⟩⟩ := allocate_cases hallocate
  · cases hshared
  obtain rfl := Allocation.fresh.inj hfresh
  -- the children are shaded before the place is taken, and that changes neither room nor names
  obtain ⟨-, hnone, hentry⟩ := (hcoherent.foldl_shade node.children).place
    (by rwa [foldl_shade_eq Arena.size shade_size, foldl_shade_eq Arena.capacity shade_capacity])
    (by rwa [foldl_shade_eq Arena.interned shade_interned])
  refine ⟨?_, ?_, ?_⟩
  · rw [← foldl_shade_eq (fun arena => arena.contains _)
      (fun arena root => contains_shade arena root _) node.children arena]
    unfold contains
    rw [hnone]
    rfl
  · rw [hentry, if_pos rfl, foldl_shade_eq Arena.epoch shade_epoch]
  · intro other hother
    rw [hentry, if_neg hother]

/-! ### Reclaiming -/

/-- The sweep of this epoch takes the node of the handle away. -/
def Reclaimable (arena : Arena) (epoch : Nat) (isLive : Handle → Bool) (handle : Handle) : Prop :=
  ∃ entry, arena.table.entryOf? handle = some entry ∧ entry.born < epoch ∧ entry.shaded ≠ epoch ∧
    isLive handle = false

/-- What the sweep can do to a slot. -/
theorem Coherent.reclaim_cases (hcoherent : arena.Coherent issued) (epoch : Nat)
    (isLive : Handle → Bool) (index : Nat) :
    (arena.reclaim epoch isLive index = (none, arena) ∧
        ∀ handle : Handle, handle.index.toNat = index →
          ¬ arena.Reclaimable epoch isLive handle) ∨
      ∃ handle entry, handle.index.toNat = index ∧ arena.table.entryOf? handle = some entry ∧
        arena.Reclaimable epoch isLive handle ∧
        arena.reclaim epoch isLive index = (some handle, arena.remove handle entry.node) := by
  have hkept : ∀ {handle : Handle} {slot : Slot}, handle.index.toNat = index →
      arena.table[index]? = some slot → slot.entry = none →
      ¬ arena.Reclaimable epoch isLive handle := by
    rintro handle slot rfl hslot hnone ⟨entry, hentry, -⟩
    rw [Table.entryOf?_of_slot hslot, hnone, ite_self] at hentry
    cases hentry
  -- no slot, an empty one, and one with a node are the cases of the program
  match hslot : arena.table[index]? with
  | none =>
      refine .inl ⟨by simp only [Arena.reclaim, hslot], ?_⟩
      rintro handle rfl ⟨entry, hentry, -⟩
      rw [Table.entryOf?_of_no_slot hslot] at hentry
      cases hentry
  | some { generation := generation, entry := none } =>
      exact .inl ⟨by simp only [Arena.reclaim, hslot], fun handle hindex => hkept hindex hslot rfl⟩
  | some { generation := generation, entry := some entry } =>
      -- the index of an occupied slot fits a handle
      have hissued : index < issued := by
        by_contra hge
        have hnone := hcoherent.vacant_from _ _ (Nat.le_of_not_lt hge) hslot
        cases hnone
      have hindex : (UInt32.ofNat index).toNat = index :=
        UInt32.toNat_ofNat_of_lt' (Nat.lt_of_lt_of_le hissued hcoherent.issued_le)
      let handle : Handle := { index := UInt32.ofNat index, generation := generation }
      have hentry : arena.table.entryOf? handle = some entry := by
        rw [Table.entryOf?_eq_some_iff]
        simpa [handle, hindex] using hslot
      have hguard : (epoch ≤ entry.born || entry.shaded == epoch || isLive handle) = false ↔
          entry.born < epoch ∧ entry.shaded ≠ epoch ∧ isLive handle = false := by
        simp [and_assoc]
      by_cases hreclaim : entry.born < epoch ∧ entry.shaded ≠ epoch ∧ isLive handle = false
      · refine .inr ⟨handle, entry, hindex, hentry, ⟨entry, hentry, hreclaim⟩, ?_⟩
        simp only [Arena.reclaim, hslot]
        exact if_neg (Bool.not_eq_true _ ▸ hguard.mpr hreclaim)
      · refine .inl ⟨?_, ?_⟩
        · simp only [Arena.reclaim, hslot]
          exact if_pos (Bool.not_eq_false _ ▸ fun h => hreclaim (hguard.mp h))
        · rintro other hother ⟨otherEntry, hotherEntry, hreclaimable⟩
          have hsame : other = handle := Table.entryOf?_index_injective hotherEntry hentry
            (UInt32.toNat_inj.mp (hother.trans hindex.symm))
          subst hsame
          obtain rfl := Option.some.inj (hentry.symm.trans hotherEntry)
          exact hreclaim hreclaimable

theorem Coherent.reclaim (hcoherent : arena.Coherent issued) (epoch : Nat)
    (isLive : Handle → Bool) (index : Nat) :
    (arena.reclaim epoch isLive index).2.Coherent issued := by
  rcases hcoherent.reclaim_cases epoch isLive index with ⟨h, -⟩ | ⟨handle, entry, -, hentry, -, h⟩
  · rw [h]
    exact hcoherent
  · rw [h]
    exact hcoherent.remove hentry

open Classical in
/-- **What is left of the entries when the sweep has gone over a slot.** -/
theorem Coherent.entryOf?_reclaim (hcoherent : arena.Coherent issued) (epoch : Nat)
    (isLive : Handle → Bool) (index : Nat) (handle : Handle) :
    (arena.reclaim epoch isLive index).2.table.entryOf? handle =
      if handle.index.toNat = index ∧ arena.Reclaimable epoch isLive handle then none
      else arena.table.entryOf? handle := by
  rcases hcoherent.reclaim_cases epoch isLive index with
    ⟨h, hnot⟩ | ⟨other, entry, hindex, hentry, hreclaimable, h⟩
  · rw [h, if_neg fun hboth => hnot handle hboth.1 hboth.2]
  · rw [h, entryOf?_remove _ hentry]
    by_cases hsame : handle = other
    · subst hsame
      rw [if_pos rfl, if_pos ⟨hindex, hreclaimable⟩]
    · rw [if_neg hsame, if_neg]
      rintro ⟨hindex', otherEntry, hother, -⟩
      exact hsame (Table.entryOf?_index_injective hother hentry
        (UInt32.toNat_inj.mp (hindex'.trans hindex.symm)))

@[simp] theorem reclaim_epoch (arena : Arena) (epoch : Nat) (isLive : Handle → Bool)
    (index : Nat) : (arena.reclaim epoch isLive index).2.epoch = arena.epoch := by
  unfold reclaim
  split
  · dsimp only
    split <;> rfl
  · rfl

@[simp] theorem reclaim_cycleActive (arena : Arena) (epoch : Nat) (isLive : Handle → Bool)
    (index : Nat) : (arena.reclaim epoch isLive index).2.cycleActive = arena.cycleActive := by
  unfold reclaim
  split
  · dsimp only
    split <;> rfl
  · rfl

end Arena

end ExprHeap
