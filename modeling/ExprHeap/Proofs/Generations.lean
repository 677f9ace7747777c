import ExprHeap.Proofs.StoreRuns
import ExprHeap.Proofs.Words
import Mathlib.Logic.Function.Iterate

/-!
# How long a stale handle stays stale

A node that is taken away leaves its handle in host memory.  The slot may get a
new node, and what keeps the old handle from naming it is the generation: every
time a slot is vacated it takes the next of `2 ^ 32 - 1` generations, and nothing
else moves it.  So the generation of a slot counts how often it was vacated
(`Store.toNat_generation_of_run`), and a handle whose node is freed is turned down
wherever it is used until its slot has been vacated a whole period of times.
Then, and not before, the next node in the slot is given the same handle
(`Store.stale_for_a_period`).

## Strategy

A call does one of two things to a slot: the slot stays in its generation with
its node, if it had one, or it is vacated (`Store.slot_perform`).  None of this
needs the arena to be coherent; the slots are read through `Table.slot`, in
which a slot that is not there yet counts as fresh.

Three calls free a node (`Store.Frees`): its release, the sweep of its slot, and
a clear.  In a coherent store they are the calls that its handle does not outlive
(`Store.frees_iff`), so each of them vacates the slot.
-/

namespace ExprHeap

/-! ### The period -/

/-- The number of generations that a slot goes through before one comes again. -/
def generationPeriod : Nat := UInt32.size - 1

theorem generationPeriod_eq : generationPeriod = 4294967295 := rfl

theorem toNat_nextGeneration (generation : UInt32) :
    (nextGeneration generation).toNat = generation.toNat % generationPeriod + 1 := by
  have hbound : generation.toNat < 4294967296 := generation.toNat_lt
  have hnext : (generation + 1).toNat = (generation.toNat + 1) % 4294967296 := by
    rw [UInt32.toNat_add, UInt32.toNat_one]
  unfold nextGeneration
  rw [generationPeriod_eq]
  -- the generation after the last one is one, since zero stands for no handle
  split
  · rename_i hlast
    rw [hlast, UInt32.toNat_zero] at hnext
    rw [UInt32.toNat_one]
    omega
  · rename_i hlater
    have hne : (generation + 1).toNat ≠ 0 := fun hzero => hlater (UInt32.toNat_inj.mp hzero)
    omega

/-- Generations run through `1, 2, …, 2 ^ 32 - 1` and start again. -/
theorem toNat_iterate_nextGeneration {generation : UInt32} (hgeneration : generation ≠ 0)
    (count : Nat) : (nextGeneration^[count] generation).toNat =
      (generation.toNat - 1 + count) % generationPeriod + 1 := by
  have hpos : generation.toNat ≠ 0 := fun hzero => hgeneration (UInt32.toNat_inj.mp hzero)
  have hbound : generation.toNat < 4294967296 := generation.toNat_lt
  rw [generationPeriod_eq]
  induction count with
  | zero =>
      rw [Function.iterate_zero_apply]
      omega
  | succ count ih =>
      rw [Function.iterate_succ_apply', toNat_nextGeneration, ih, generationPeriod_eq]
      omega

theorem iterate_nextGeneration_eq_iff {generation : UInt32} (hgeneration : generation ≠ 0)
    (count : Nat) : nextGeneration^[count] generation = generation ↔ generationPeriod ∣ count := by
  have hpos : generation.toNat ≠ 0 := fun hzero => hgeneration (UInt32.toNat_inj.mp hzero)
  have hbound : generation.toNat < 4294967296 := generation.toNat_lt
  rw [← UInt32.toNat_inj, toNat_iterate_nextGeneration hgeneration, generationPeriod_eq]
  omega

/-! ### Slots -/

namespace Slot

/-- The slot stays in its generation, and the node in it stays, if there was one. -/
structure KeptIn (before after : Slot) : Prop where
  generation_eq : after.generation = before.generation
  occupied : before.entry.isSome → after.entry.isSome

namespace KeptIn

variable {before between after : Slot}

theorem refl (slot : Slot) : slot.KeptIn slot where
  generation_eq := rfl
  occupied := id

theorem trans (hfirst : before.KeptIn between) (hsecond : between.KeptIn after) :
    before.KeptIn after where
  generation_eq := hsecond.generation_eq.trans hfirst.generation_eq
  occupied hbefore := hsecond.occupied (hfirst.occupied hbefore)

theorem of_bare_eq (hbare : after.bare = before.bare) : before.KeptIn after where
  generation_eq := generation_eq_of_bare_eq hbare
  occupied hbefore := by
    rw [Option.isSome_iff_ne_none] at hbefore ⊢
    exact fun hnone => hbefore ((entry_eq_none_iff_of_bare_eq hbare).mp hnone)

end KeptIn

theorem keptIn_occupied (slot : Slot) (entry : Entry) : slot.KeptIn (slot.occupied entry) where
  generation_eq := rfl
  occupied _ := rfl

theorem generation_vacated (slot : Slot) : slot.vacated.generation =
    if slot.entry.isSome then nextGeneration slot.generation else slot.generation := by
  unfold vacated
  split <;> rfl

end Slot

namespace Table

/-- The slot with an index, a fresh one if it is not there yet. -/
def slot (table : Table) (index : UInt32) : Slot :=
  table[index.toNat]?.getD .fresh

theorem slot_map (table : Table) {change : Slot → Slot} (hfresh : change .fresh = .fresh)
    (index : UInt32) : Table.slot (table.map change) index = change (table.slot index) := by
  unfold slot
  rw [Array.getElem?_map]
  cases table[index.toNat]? with
  | none => exact hfresh.symm
  | some slot => rfl

theorem slot_modify (table : Table) {change : Slot → Slot} (hfresh : change .fresh = .fresh)
    (changed index : UInt32) : Table.slot (table.modify changed.toNat change) index =
      if changed = index then change (table.slot index) else table.slot index := by
  unfold slot
  rw [Array.getElem?_modify]
  by_cases hsame : changed = index
  · subst hsame
    rw [if_pos rfl, if_pos rfl]
    cases table[changed.toNat]? with
    | none => exact hfresh.symm
    | some slot => rfl
  · rw [if_neg hsame, if_neg fun h => hsame (UInt32.toNat_inj.mp h)]

theorem slot_push_fresh (table : Table) (index : UInt32) :
    Table.slot (table.push .fresh) index = table.slot index := by
  unfold slot
  rw [Array.getElem?_push]
  split
  · rename_i hend
    rw [hend, Array.getElem?_eq_none (Nat.le_refl _)]
    rfl
  · rfl

theorem keptIn_slot_occupy (table : Table) (filled index : UInt32) (entry : Entry) :
    (table.slot index).KeptIn ((table.occupy filled entry).slot index) := by
  unfold slot
  rw [getElem?_occupy]
  split
  · cases table[index.toNat]? with
    | none => exact .refl _
    | some slot => exact slot.keptIn_occupied entry
  · exact .refl _

/-- A handle names an entry if its slot is occupied and in its generation. -/
theorem isSome_entryOf?_iff (table : Table) (handle : Handle) :
    (table.entryOf? handle).isSome = true ↔ (table.slot handle.index).entry.isSome = true ∧
      (table.slot handle.index).generation = handle.generation := by
  unfold entryOf? slot
  cases hslot : table[handle.index.toNat]? with
  | none => simp
  | some slot =>
      by_cases hgeneration : slot.generation = handle.generation
      · simp [hgeneration]
      · simp [hgeneration]

end Table

/-! ### What the operations do to a slot -/

namespace Arena

theorem keptIn_slot_shade (arena : Arena) (root : Handle) (index : UInt32) :
    (arena.table.slot index).KeptIn ((arena.shade root).table.slot index) := by
  have hbare : Slot.bare .fresh = .fresh := rfl
  apply Slot.KeptIn.of_bare_eq
  rw [← Table.slot_map _ hbare, map_bare_shade, Table.slot_map _ hbare]

theorem keptIn_slot_foldl_shade (arena : Arena) (roots : List Handle) (index : UInt32) :
    (arena.table.slot index).KeptIn ((roots.foldl shade arena).table.slot index) := by
  induction roots generalizing arena with
  | nil => exact .refl _
  | cons root rest ih => exact (arena.keptIn_slot_shade root index).trans (ih _)

theorem keptIn_slot_place (arena : Arena) (node : Node) (index : UInt32) :
    (arena.table.slot index).KeptIn ((arena.place node).2.table.slot index) := by
  cases hvacant : arena.vacant with
  | cons top rest =>
      simp only [place, takeVacant, hvacant]
      exact Table.keptIn_slot_occupy _ _ _ _
  | nil =>
      simp only [place, takeVacant, hvacant]
      rw [← Table.slot_push_fresh arena.table index]
      exact Table.keptIn_slot_occupy _ _ _ _

/-- No request vacates a slot. -/
theorem keptIn_slot_apply (arena : Arena) (request : NodeRequest) (index : UInt32) :
    (arena.table.slot index).KeptIn ((arena.apply request).table.slot index) := by
  cases request with
  | allocate node =>
      rw [apply]
      rcases arena.request_steps node with hsame | ⟨handle, hshade⟩ | ⟨-, -, hplace⟩
      · rw [hsame]
        exact .refl _
      · rw [hshade]
        exact arena.keptIn_slot_shade handle index
      · rw [hplace]
        exact (arena.keptIn_slot_foldl_shade node.children index).trans
          (keptIn_slot_place _ node index)
  | shade root =>
      rw [apply_shade]
      split
      · exact arena.keptIn_slot_shade root index
      · exact .refl _

theorem slot_remove (arena : Arena) (handle : Handle) (node : Node) (index : UInt32) :
    (arena.remove handle node).table.slot index =
      if handle.index = index then (arena.table.slot index).vacated
      else arena.table.slot index :=
  arena.table.slot_modify rfl handle.index index

theorem slot_clear (arena : Arena) (index : UInt32) :
    arena.clear.2.table.slot index = (arena.table.slot index).vacated :=
  arena.table.slot_map rfl index

theorem contains_iff_slot (arena : Arena) (handle : Handle) :
    arena.contains handle = true ↔ (arena.table.slot handle.index).entry.isSome = true ∧
      (arena.table.slot handle.index).generation = handle.generation :=
  arena.table.isSome_entryOf?_iff handle

end Arena

namespace Store

variable {store : Store}

/-- The slot with an index, a fresh one if it is not there yet. -/
def slot (store : Store) (index : UInt32) : Slot :=
  store.arena.table.slot index

theorem slot_remove_or {arena : Arena} (handle : Handle) (node : Node) (index : UInt32) :
    (arena.table.slot index).KeptIn ((arena.remove handle node).table.slot index) ∨
      (arena.remove handle node).table.slot index = (arena.table.slot index).vacated := by
  rw [Arena.slot_remove]
  split
  · exact .inr rfl
  · exact .inl (.refl _)

/-- **What a call can do to a slot**: leave it in its generation, or vacate it. -/
theorem slot_perform (store : Store) (call : StoreCall) (index : UInt32) :
    (store.slot index).KeptIn ((store.perform call).slot index) ∨
      (store.perform call).slot index = (store.slot index).vacated := by
  unfold slot
  cases call with
  | request request =>
      rw [arena_request]
      exact .inl (store.arena.keptIn_slot_apply request index)
  | release handle =>
      simp only [perform, release, Arena.release]
      cases store.arena.table.entryOf? handle with
      | none => exact .inl (.refl _)
      | some entry => exact slot_remove_or handle entry.node index
  | reclaim epoch isLive position =>
      rw [arena_reclaim]
      unfold Arena.reclaim
      split
      · dsimp only
        split
        · exact .inl (.refl _)
        · exact slot_remove_or _ _ index
      · exact .inl (.refl _)
  | beginCycle => exact .inl (.refl _)
  | endCycle => exact .inl (.refl _)
  | clear => exact .inr (store.arena.slot_clear index)

/-! ### Counting how often a slot is vacated -/

/-- Whether a call vacates a slot: there was a node in it, and then there is none. -/
def vacates (store : Store) (call : StoreCall) (index : UInt32) : Bool :=
  (store.slot index).entry.isSome && ((store.perform call).slot index).entry.isNone

/-- How often calls vacate a slot. -/
def vacations (store : Store) (index : UInt32) : List StoreCall → Nat
  | [] => 0
  | call :: rest =>
    (store.vacates call index).toNat + (store.perform call).vacations index rest

theorem vacations_append (store : Store) (index : UInt32) (first second : List StoreCall) :
    store.vacations index (first ++ second) =
      store.vacations index first + (store.performAll first).vacations index second := by
  induction first generalizing store with
  | nil => simp [vacations]
  | cons call rest ih =>
      rw [List.cons_append, vacations, vacations, ih, performAll_cons, Nat.add_assoc]

/-- A call that vacates a slot moves it to its next generation, and no other call does. -/
theorem generation_perform (store : Store) (call : StoreCall) (index : UInt32) :
    ((store.perform call).slot index).generation =
      nextGeneration^[(store.vacates call index).toNat] (store.slot index).generation := by
  unfold vacates
  -- a slot is left with its generation or vacated, and only a vacation of a taken slot moves it on
  rcases store.slot_perform call index with hkept | hvacated
  · cases hbefore : (store.slot index).entry.isSome with
    | false => exact hkept.generation_eq
    | true =>
        rw [Option.isNone_eq_false_iff.mpr (hkept.occupied hbefore)]
        exact hkept.generation_eq
  · rw [hvacated, Slot.entry_vacated, Slot.generation_vacated]
    cases (store.slot index).entry.isSome with
    | false => rfl
    | true => rfl

/-- **The generation of a slot counts how often it was vacated.** -/
theorem generation_performAll (store : Store) (calls : List StoreCall) (index : UInt32) :
    ((store.performAll calls).slot index).generation =
      nextGeneration^[store.vacations index calls] (store.slot index).generation := by
  induction calls generalizing store with
  | nil => rfl
  | cons call rest ih =>
      rw [performAll_cons, ih, generation_perform, vacations, Nat.add_comm,
        Function.iterate_add_apply]

/-- Along a run from an empty store the generations of a slot start with one. -/
theorem toNat_generation_of_run (capacity : Nat) (calls : List StoreCall) (index : UInt32) :
    (((empty capacity).performAll calls).slot index).generation.toNat =
      (empty capacity).vacations index calls % generationPeriod + 1 := by
  have hempty : ((empty capacity).slot index).generation = 1 := rfl
  rw [generation_performAll, hempty, toNat_iterate_nextGeneration (by decide)]
  simp

/-! ### Being turned down -/

/-- A handle is turned down wherever it is used. -/
structure Refuses (store : Store) (handle : Handle) : Prop where
  contains : store.arena.contains handle = false
  node : store.node handle = .error (.invalidHandle handle.word)
  childrenOf : store.childrenOf handle = .error (.invalidHandle handle.word)
  widthOf : store.widthOf handle = .error (.invalidHandle handle.word)
  shade : store.shade handle = .error (.invalidHandle handle.word)
  release : store.release handle = .error (.invalidHandle handle.word)
  resolve : store.arena.resolve? handle.word = none
  /-- With it among its children no node is allocated. -/
  child : ∀ node : Node, handle ∈ node.children → ∃ error, store.allocate node = .error error
  /-- The error names the first child that is not there. -/
  firstChild : ∀ node : Node, node.children.length = node.op.arity →
    node.children.find? (!store.arena.contains ·) = some handle →
    store.allocate node = .error (.invalidHandle handle.word)

/-- **What names no node is turned down wherever it is used.** -/
theorem refuses_of_not_contained {handle : Handle} (hgeneration : handle.generation ≠ 0)
    (hmissing : store.arena.contains handle = false) : store.Refuses handle := by
  have hentry : store.arena.table.entryOf? handle = none := by
    simpa [Arena.contains] using hmissing
  have hnode : store.node handle = .error (.invalidHandle handle.word) := by
    simp only [Store.node, Arena.node?, hentry, Option.map_none]
  exact
    { contains := hmissing
      node := hnode
      childrenOf := by rw [Store.childrenOf, hnode]; rfl
      widthOf := by rw [Store.widthOf, hnode]; rfl
      shade := by rw [Store.shade, hmissing]; rfl
      release := by simp only [Store.release, Arena.release, hentry]
      resolve := by
        rw [Arena.resolve?, Handle.ofWord?_word hgeneration, Option.filter_some, hmissing]
        rfl
      child := fun node hmem => by
        cases hallocate : store.allocate node with
        | error error => exact ⟨error, rfl⟩
        | ok answer =>
            obtain ⟨-, hchildren, -⟩ := Arena.allocate_cases (arena_allocate hallocate)
            rw [hchildren handle hmem] at hmissing
            cases hmissing
      firstChild := fun _ harity hfirst => allocate_of_find? harity hfirst }

/-! ### Freeing -/

/-- The calls that free the node of a handle: its release, a sweep that takes it out of its slot,
and a clear of the store while it is there. -/
inductive Frees (store : Store) (handle : Handle) : StoreCall → Prop where
  | release {node : Node} {after : Store} (hrelease : store.release handle = .ok (node, after)) :
      Frees store handle (.release handle)
  | reclaim {epoch : Nat} {isLive : Handle → Bool} {index : Nat} {after : Arena}
      (hreclaim : store.arena.reclaim epoch isLive index = (some handle, after)) :
      Frees store handle (.reclaim epoch isLive index)
  | clear (hnamed : store.arena.contains handle = true) : Frees store handle .clear

/-- What is freed was there, and is taken away alone or together with everything else. -/
theorem Frees.taken {issued : Nat} (hcoherent : store.arena.Coherent issued) {handle : Handle}
    {freeing : StoreCall} (hfrees : store.Frees handle freeing) :
    ∃ entry, store.arena.table.entryOf? handle = some entry ∧
      ((store.perform freeing).arena = store.arena.remove handle entry.node ∨
        (store.perform freeing).arena = store.arena.clear.2) := by
  -- what a freeing call does is read off its answer
  cases hfrees with
  | release hrelease =>
      cases hentry : store.arena.table.entryOf? handle with
      | none =>
          simp only [Store.release, Arena.release, hentry] at hrelease
          cases hrelease
      | some entry =>
          refine ⟨entry, rfl, .inl ?_⟩
          simp only [perform, Store.release, Arena.release, hentry]
  | reclaim hreclaim =>
      rw [arena_reclaim]
      rcases hcoherent.reclaim_cases _ _ _ with
        ⟨hnothing, -⟩ | ⟨other, entry, -, hentry, -, htaken⟩
      · rw [hnothing] at hreclaim
        cases hreclaim
      · rw [htaken] at hreclaim ⊢
        cases hreclaim
        exact ⟨entry, hentry, .inl rfl⟩
  | clear hnamed =>
      obtain ⟨entry, hentry⟩ := Arena.exists_entry_of_contains hnamed
      exact ⟨entry, hentry, .inr rfl⟩

/-- A slot that stays in its generation with its node is named by the same handle. -/
theorem contains_of_keptIn {after : Store} {handle : Handle}
    (hnamed : store.arena.contains handle = true)
    (hkept : (store.slot handle.index).KeptIn (after.slot handle.index)) :
    after.arena.contains handle = true := by
  obtain ⟨hoccupied, hgeneration⟩ := (Arena.contains_iff_slot _ _).mp hnamed
  exact (Arena.contains_iff_slot _ _).mpr
    ⟨hkept.occupied hoccupied, hkept.generation_eq.trans hgeneration⟩

theorem frees_release {handle : Handle} (hnamed : store.arena.contains handle = true) :
    store.Frees handle (.release handle) := by
  obtain ⟨entry, hentry⟩ := Arena.exists_entry_of_contains hnamed
  have hrelease : store.release handle = .ok (entry.node,
      { store with
        arena := store.arena.remove handle entry.node
        frees := store.frees + 1 }) := by
    simp only [Store.release, Arena.release, hentry]
  exact .release hrelease

theorem frees_reclaim {issued epoch : Nat} (hcoherent : store.arena.Coherent issued)
    {handle : Handle} {isLive : Handle → Bool}
    (hreclaimable : store.arena.Reclaimable epoch isLive handle) :
    store.Frees handle (.reclaim epoch isLive handle.index.toNat) := by
  rcases hcoherent.reclaim_cases epoch isLive handle.index.toNat with
    ⟨-, hnot⟩ | ⟨other, entry, hindex, hentry, -, htaken⟩
  · exact absurd hreclaimable (hnot handle rfl)
  · obtain ⟨_, hnamed, -⟩ := hreclaimable
    cases Table.entryOf?_index_injective hentry hnamed (UInt32.toNat_inj.mp hindex)
    exact .reclaim htaken

/-- A handle that loses its name when a node is removed is the handle of that node. -/
theorem eq_of_contains_remove {handle other : Handle} {entry : Entry} (node : Node)
    (hentry : store.arena.table.entryOf? other = some entry)
    (hnamed : store.arena.contains handle = true)
    (hfreed : (store.arena.remove other node).contains handle = false) : other = handle := by
  by_contra hne
  rw [Arena.contains, Arena.Coherent.entryOf?_remove node hentry, if_neg (Ne.symm hne)] at hfreed
  rw [Arena.contains, hfreed] at hnamed
  cases hnamed

/-- **The calls that free a node are those that its handle does not outlive.** -/
theorem frees_iff {issued : Nat} (hcoherent : store.arena.Coherent issued) (handle : Handle)
    (call : StoreCall) : store.Frees handle call ↔ store.arena.contains handle = true ∧
      (store.perform call).arena.contains handle = false := by
  constructor
  · intro hfrees
    obtain ⟨entry, hentry, hremove | hclear⟩ := hfrees.taken hcoherent
    · refine ⟨Arena.contains_of_entryOf? hentry, ?_⟩
      rw [hremove, Arena.contains, Arena.Coherent.entryOf?_remove _ hentry, if_pos rfl]
      rfl
    · refine ⟨Arena.contains_of_entryOf? hentry, ?_⟩
      rw [hclear, Arena.contains, Arena.Coherent.entryOf?_clear]
      rfl
  · rintro ⟨hnamed, hfreed⟩
    -- a call that keeps the handle's slot as it is would keep its name
    have hkeeps : ¬ (store.slot handle.index).KeptIn ((store.perform call).slot handle.index) := by
      intro hkept
      rw [contains_of_keptIn hnamed hkept] at hfreed
      cases hfreed
    cases call with
    | request request =>
        refine absurd ?_ hkeeps
        rw [slot, slot, arena_request]
        exact store.arena.keptIn_slot_apply request handle.index
    | release other =>
        cases hentry : store.arena.table.entryOf? other with
        | none =>
            simp only [perform, Store.release, Arena.release, hentry, hnamed] at hfreed
            cases hfreed
        | some entry =>
            simp only [perform, Store.release, Arena.release, hentry] at hfreed
            cases eq_of_contains_remove entry.node hentry hnamed hfreed
            exact frees_release hnamed
    | reclaim epoch isLive index =>
        rw [arena_reclaim] at hfreed
        rcases hcoherent.reclaim_cases epoch isLive index with
          ⟨hnothing, -⟩ | ⟨other, entry, -, hentry, -, htaken⟩
        · rw [hnothing, hnamed] at hfreed
          cases hfreed
        · rw [htaken] at hfreed
          cases eq_of_contains_remove entry.node hentry hnamed hfreed
          exact .reclaim htaken
    | beginCycle => exact absurd (.refl _) hkeeps
    | endCycle => exact absurd (.refl _) hkeeps
    | clear => exact .clear hnamed

/-! ### A whole period -/

/-- What an allocation answers with is there afterwards. -/
theorem contains_of_allocate {issued : Nat} (hcoherent : store.arena.Coherent issued)
    {node : Node} {allocation : Allocation} {after : Store}
    (hallocate : store.allocate node = .ok (allocation, after)) :
    after.arena.contains allocation.handle = true := by
  have harena := arena_allocate hallocate
  obtain ⟨-, -, ⟨handle, rfl, hinterned, hafter⟩ | ⟨-, -, rfl, -⟩⟩ := Arena.allocate_cases harena
  · rw [hafter, Arena.contains_shade]
    exact Arena.contains_of_node? ((hcoherent.interned_iff node handle).mp hinterned)
  · obtain ⟨-, hentry, -⟩ := hcoherent.allocate_fresh harena
    exact Arena.contains_of_entryOf? hentry

/-- An allocation answers with the generation that the slot had before. -/
theorem generation_of_allocate {issued : Nat} (hcoherent : store.arena.Coherent issued)
    {node : Node} {allocation : Allocation} {after : Store}
    (hallocate : store.allocate node = .ok (allocation, after)) :
    allocation.handle.generation = (store.slot allocation.handle.index).generation := by
  have hafter : after.arena = store.arena.apply (.allocate node) :=
    (Arena.request_of_ok (arena_allocate hallocate)).symm
  have hcontains := contains_of_allocate hcoherent hallocate
  rw [Arena.contains_iff_slot, hafter] at hcontains
  rw [← hcontains.2]
  exact (store.arena.keptIn_slot_apply (.allocate node) _).generation_eq

/-- Taking the node of a handle away vacates its slot. -/
theorem vacates_of_freed {handle : Handle} {freeing : StoreCall}
    (hnamed : store.arena.contains handle = true)
    (hfreed : (store.perform freeing).arena.contains handle = false) :
    store.vacates freeing handle.index = true := by
  obtain ⟨hoccupied, -⟩ := (Arena.contains_iff_slot _ _).mp hnamed
  rcases store.slot_perform freeing handle.index with hkept | hvacated
  · rw [contains_of_keptIn hnamed hkept] at hfreed
    cases hfreed
  · unfold vacates
    rw [hvacated, Slot.entry_vacated]
    exact Bool.and_eq_true_iff.mpr ⟨hoccupied, rfl⟩

/-- A slot is back in the generation of a handle after whole periods only. -/
theorem generation_eq_iff_of_named {issued : Nat} (hcoherent : store.arena.Coherent issued)
    {handle : Handle} (hnamed : store.arena.contains handle = true) (calls : List StoreCall) :
    ((store.performAll calls).slot handle.index).generation = handle.generation ↔
      generationPeriod ∣ store.vacations handle.index calls := by
  obtain ⟨entry, hentry⟩ := Arena.exists_entry_of_contains hnamed
  have hgeneration := ((Arena.contains_iff_slot _ _).mp hnamed).2
  rw [generation_performAll, slot, hgeneration]
  exact iterate_nextGeneration_eq_iff (hcoherent.handle_generation_ne_zero hentry) _

/-- **A handle that lost its node stays stale for a whole period.**  The calls that free a node
are those that its handle does not outlive.  After such a call the handle is turned down wherever
it is used, and no node is given it, until its slot has been vacated `2 ^ 32 - 1` times, counting
that call; from then on it names what is in the slot exactly after whole periods, and the node that
takes the slot after one period is given it again.  The generations of every slot run through all
numbers from one in order. -/
theorem stale_for_a_period (capacity : Nat) (earlier : List StoreCall) (handle : Handle) :
    let before := (empty capacity).performAll earlier
    (∀ call, before.Frees handle call ↔ before.arena.contains handle = true ∧
      (before.perform call).arena.contains handle = false) ∧
    ∀ freeing later, before.Frees handle freeing →
      let now := before.performAll (freeing :: later)
      let vacations := before.vacations handle.index (freeing :: later)
      (vacations < generationPeriod → now.Refuses handle ∧
        ∀ node allocation after, now.allocate node = .ok (allocation, after) →
          allocation.handle ≠ handle) ∧
      (now.arena.contains handle = true ↔
        (now.slot handle.index).entry.isSome = true ∧ generationPeriod ∣ vacations) ∧
      (vacations = generationPeriod →
        ∀ node fresh after, now.allocate node = .ok (.fresh fresh, after) →
          fresh.index = handle.index → fresh = handle) ∧
      ∀ index, (now.slot index).generation.toNat =
        (empty capacity).vacations index (earlier ++ freeing :: later) % generationPeriod + 1 := by
  intro before
  have hempty : (empty capacity).arena.Coherent 0 := Arena.coherent_empty capacity
  obtain ⟨_, hbefore⟩ := coherent_performAll hempty earlier
  refine ⟨frees_iff hbefore handle, ?_⟩
  intro freeing later hfrees now vacations
  obtain ⟨hnamed, hfreed⟩ := (frees_iff hbefore handle freeing).mp hfrees
  obtain ⟨_, hnow⟩ := coherent_performAll hbefore (freeing :: later)
  have hgeneration : (now.slot handle.index).generation = handle.generation ↔
      generationPeriod ∣ vacations := generation_eq_iff_of_named hbefore hnamed _
  have hcontains : now.arena.contains handle = true ↔
      (now.slot handle.index).entry.isSome = true ∧ generationPeriod ∣ vacations := by
    rw [Arena.contains_iff_slot, ← hgeneration]
    rfl
  -- the freeing call is a vacation itself, so no multiple of the period is reached before the first
  have hpositive : 0 < vacations := by
    have hvacates : before.vacates freeing handle.index = true := vacates_of_freed hnamed hfreed
    show 0 < (before.vacates freeing handle.index).toNat + _
    rw [hvacates]
    exact Nat.add_pos_left Nat.one_pos _
  refine ⟨?_, hcontains, ?_, ?_⟩
  · intro hless
    have hnever : ¬ generationPeriod ∣ vacations := Nat.not_dvd_of_pos_of_lt hpositive hless
    obtain ⟨entry, hentry⟩ := Arena.exists_entry_of_contains hnamed
    refine ⟨refuses_of_not_contained (hbefore.handle_generation_ne_zero hentry) ?_, ?_⟩
    · exact Bool.eq_false_iff.mpr fun h => hnever (hcontains.mp h).2
    · rintro node allocation after hallocate rfl
      exact hnever (hgeneration.mp (generation_of_allocate hnow hallocate).symm)
  · intro hperiod node fresh after hallocate hindex
    have hback : (now.slot handle.index).generation = handle.generation :=
      hgeneration.mpr (hperiod ▸ Nat.dvd_refl _)
    have hfresh : fresh.generation = (now.slot fresh.index).generation :=
      generation_of_allocate hnow hallocate
    rw [hindex, hback] at hfresh
    cases fresh
    cases handle
    simp_all
  · intro index
    rw [← toNat_generation_of_run, performAll_append]

/-- The first input byte. -/
def byteNode : Node := ⟨.input 0, [], 8⟩

/-- There is room for one node, and its slot is vacant and has been vacated this many times. -/
structure Emptied (store : Store) (count : Nat) : Prop where
  table : store.arena.table = #[{ generation := nextGeneration^[count] 1, entry := none }]
  vacant : store.arena.vacant = [0]
  interned : store.arena.interned[byteNode]? = none
  size : store.arena.size = 0
  capacity : store.arena.capacity = 1
  epoch : store.arena.epoch = 0

/-- There is room for one node, and the byte is in its slot, which has been vacated this many
times. -/
structure Filled (store : Store) (count : Nat) : Prop where
  table : store.arena.table =
    #[{ generation := nextGeneration^[count] 1, entry := some ⟨byteNode, 0, 0⟩ }]
  vacant : store.arena.vacant = []
  size : store.arena.size = 1
  capacity : store.arena.capacity = 1
  epoch : store.arena.epoch = 0

/-- The byte gets the generation that the slot has come to. -/
theorem Emptied.allocate {count : Nat} (hemptied : store.Emptied count) :
    ∃ after, store.allocate byteNode = .ok (.fresh ⟨0, nextGeneration^[count] 1⟩, after) ∧
      after.Filled count := by
  have hroom : ¬ store.arena.capacity ≤ store.arena.size := by
    rw [hemptied.capacity, hemptied.size]
    decide
  have hplaced : store.arena.allocate byteNode =
      .ok (.fresh (store.arena.place byteNode).1, (store.arena.place byteNode).2) := by
    have hleaf : byteNode.children = [] := rfl
    simp only [Arena.allocate, hleaf, hemptied.interned, if_neg hroom]
    rfl
  have hgeneration : store.arena.table.generation 0 = nextGeneration^[count] 1 := by
    rw [hemptied.table]
    rfl
  have htaken : store.arena.takeVacant =
      (⟨0, nextGeneration^[count] 1⟩, { store.arena with vacant := [] }) := by
    simp only [Arena.takeVacant, hemptied.vacant, hgeneration]
  have hoccupied : store.arena.table.occupy 0 ⟨byteNode, 0, 0⟩ =
      #[{ generation := nextGeneration^[count] 1, entry := some ⟨byteNode, 0, 0⟩ }] := by
    rw [hemptied.table]
    rfl
  have hplace : store.arena.place byteNode = (⟨0, nextGeneration^[count] 1⟩,
      { store.arena with
        table := store.arena.table.occupy 0 ⟨byteNode, 0, 0⟩
        vacant := []
        interned := store.arena.interned.insert byteNode ⟨0, nextGeneration^[count] 1⟩
        size := store.arena.size + 1 }) := by
    simp only [Arena.place, htaken, hemptied.epoch]
  refine ⟨{ store with
    arena := (store.arena.place byteNode).2
    allocations := store.allocations + 1 }, ?_, ?_⟩
  · rw [Store.allocate, hplaced, hplace]
  · rw [hplace]
    exact
      { table := hoccupied
        vacant := rfl
        size := congrArg (· + 1) hemptied.size
        capacity := hemptied.capacity
        epoch := hemptied.epoch }

theorem Filled.entry {count : Nat} (hfilled : store.Filled count) :
    store.arena.table.entryOf? ⟨0, nextGeneration^[count] 1⟩ = some ⟨byteNode, 0, 0⟩ := by
  simp [Table.entryOf?, hfilled.table]

/-- Whichever call frees the byte, its slot is vacated once more. -/
theorem Filled.perform {count issued : Nat} (hcoherent : store.arena.Coherent issued)
    (hfilled : store.Filled count) {freeing : StoreCall}
    (hfrees : store.Frees ⟨0, nextGeneration^[count] 1⟩ freeing) :
    (store.perform freeing).Emptied (count + 1) ∧ store.vacates freeing 0 = true := by
  have hfreed := (frees_iff hcoherent _ _).mp hfrees
  refine ⟨?_, vacates_of_freed hfreed.1 hfreed.2⟩
  -- a removal and a clear leave the one slot alike: vacant, and one generation further
  obtain ⟨entry, hentry, hremove | hclear⟩ := hfrees.taken hcoherent
  · have hbyte : entry.node = byteNode := by
      rw [hfilled.entry] at hentry
      cases hentry
      rfl
    rw [hbyte] at hremove
    exact
      { table := by
          rw [hremove, Function.iterate_succ_apply']
          simp [Arena.remove, Table.vacate, hfilled.table, Slot.vacated]
        vacant := by rw [hremove, Arena.remove, hfilled.vacant]
        interned := by rw [hremove]; exact Std.HashMap.getElem?_erase_self
        size := by rw [hremove, Arena.remove, hfilled.size]
        capacity := by rw [hremove]; exact hfilled.capacity
        epoch := by rw [hremove]; exact hfilled.epoch }
  · exact
      { table := by
          rw [hclear, Function.iterate_succ_apply']
          simp [Arena.clear, hfilled.table, Slot.vacated]
        vacant := by rw [hclear, Arena.clear, hfilled.table]; rfl
        interned := by rw [hclear]; exact Std.HashMap.getElem?_empty
        size := by rw [hclear]; rfl
        capacity := by rw [hclear]; exact hfilled.capacity
        epoch := by rw [hclear]; exact hfilled.epoch }

/-- One round of building the byte and clearing the store. -/
def turnover : List StoreCall :=
  [.request (.allocate byteNode), .clear]

/-- A number of rounds. -/
def turnovers : Nat → List StoreCall
  | 0 => []
  | count + 1 => turnover ++ turnovers count

/-- A round vacates the slot once. -/
theorem Emptied.performAll_turnover {count issued : Nat} (hcoherent : store.arena.Coherent issued)
    (hemptied : store.Emptied count) :
    (store.performAll turnover).Emptied (count + 1) ∧ store.vacations 0 turnover = 1 := by
  obtain ⟨after, hallocate, hfilled⟩ := hemptied.allocate
  have hperform : store.perform (.request (.allocate byteNode)) = after := by
    simp only [perform, hallocate]
  obtain ⟨_, hafter⟩ := coherent_perform hcoherent (.request (.allocate byteNode))
  rw [hperform] at hafter
  obtain ⟨hnext, hvacated⟩ := hfilled.perform hafter
    (.clear (Arena.contains_of_entryOf? hfilled.entry))
  have hvacant : store.vacates (.request (.allocate byteNode)) 0 = false := by
    rw [vacates, slot, hemptied.table]
    rfl
  rw [turnover, performAll_cons, vacations, vacations, hperform, hvacant, hvacated]
  exact ⟨hnext, rfl⟩

/-- So do that many rounds, each of them once. -/
theorem Emptied.performAll_turnovers {start issued : Nat} (hcoherent : store.arena.Coherent issued)
    (hemptied : store.Emptied start) (count : Nat) :
    (store.performAll (turnovers count)).Emptied (start + count) ∧
      store.vacations 0 (turnovers count) = count := by
  induction count generalizing store start issued with
  | zero => exact ⟨hemptied, rfl⟩
  | succ count ih =>
      obtain ⟨hnext, honce⟩ := hemptied.performAll_turnover hcoherent
      obtain ⟨_, hcoherent'⟩ := coherent_performAll hcoherent turnover
      obtain ⟨hlast, hrest⟩ := ih hcoherent' hnext
      rw [turnovers, performAll_append, vacations_append, honce, hrest]
      rw [Nat.add_assoc, Nat.add_comm 1] at hlast
      exact ⟨hlast, Nat.add_comm 1 count⟩

/-- After the call that frees the byte, each round is one more vacation. -/
theorem Filled.performAll_turnovers {issued : Nat} (hcoherent : store.arena.Coherent issued)
    (hfilled : store.Filled 0) {freeing : StoreCall} (hfrees : store.Frees ⟨0, 1⟩ freeing)
    (count : Nat) :
    (store.performAll (freeing :: turnovers count)).Emptied (1 + count) ∧
      store.vacations 0 (freeing :: turnovers count) = 1 + count := by
  obtain ⟨_, hcoherent'⟩ := coherent_perform hcoherent freeing
  obtain ⟨hemptied, hvacated⟩ := hfilled.perform hcoherent hfrees
  obtain ⟨hlast, hrest⟩ := hemptied.performAll_turnovers hcoherent' count
  rw [performAll_cons, vacations, hvacated, hrest]
  exact ⟨hlast, rfl⟩

/-- The byte takes the only place of an empty store. -/
theorem filled_of_first :
    ((empty 1).performAll [.request (.allocate byteNode)]).Filled 0 := by
  have hinterned : (empty 1).arena.interned[byteNode]? = none := Std.HashMap.getElem?_empty
  have hallocate : (empty 1).arena.allocate byteNode = .ok (.fresh ⟨0, 1⟩,
      ((empty 1).arena.place byteNode).2) := by
    have hleaf : byteNode.children = [] := rfl
    simp only [Arena.allocate, hleaf, hinterned]
    rfl
  simp only [performAll_cons, performAll_nil, perform, allocate, hallocate]
  exact ⟨rfl, rfl, rfl, rfl, rfl⟩

/-- In a store with room for one node the byte is freed in each of the three ways.  Its handle is
turned down from then on, and given again when its slot has been vacated `2 ^ 32 - 1` times. -/
theorem handle_given_again_after_period :
    let before := (empty 1).performAll [.request (.allocate byteNode)]
    let later := turnovers (generationPeriod - 1)
    let comesBackAfter := fun freeing => before.Frees ⟨0, 1⟩ freeing ∧
      (before.perform freeing).Refuses ⟨0, 1⟩ ∧
      before.vacations 0 (freeing :: later) = generationPeriod ∧
      ∃ after, (before.performAll (freeing :: later)).allocate byteNode =
        .ok (.fresh ⟨0, 1⟩, after)
    comesBackAfter (.release ⟨0, 1⟩) ∧ comesBackAfter (.reclaim 1 (fun _ => false) 0) ∧
      comesBackAfter .clear := by
  intro before later comesBackAfter
  have hempty : (empty 1).arena.Coherent 0 := Arena.coherent_empty 1
  obtain ⟨_, hcoherent⟩ := coherent_performAll hempty [.request (.allocate byteNode)]
  have hstale := stale_for_a_period 1 [.request (.allocate byteNode)] ⟨0, 1⟩
  have hreturns : ∀ freeing, before.Frees ⟨0, 1⟩ freeing → comesBackAfter freeing := by
    intro freeing hfrees
    obtain ⟨-, honce⟩ := filled_of_first.performAll_turnovers hcoherent hfrees 0
    obtain ⟨hlast, hperiod⟩ :=
      filled_of_first.performAll_turnovers hcoherent hfrees (generationPeriod - 1)
    have hbelow : before.vacations 0 (freeing :: turnovers 0) < generationPeriod := by
      rw [honce]
      decide
    obtain ⟨after, hallocate, -⟩ := hlast.allocate
    refine ⟨hfrees, ((hstale.2 freeing (turnovers 0) hfrees).1 hbelow).1, hperiod, after, ?_⟩
    have hagain := (hstale.2 freeing later hfrees).2.2.1 hperiod _ _ _ hallocate rfl
    rw [← hagain]
    exact hallocate
  have hnamed : before.arena.contains ⟨0, 1⟩ = true :=
    Arena.contains_of_entryOf? filled_of_first.entry
  refine ⟨hreturns _ ?_, hreturns _ ?_, hreturns _ ?_⟩
  · exact frees_release hnamed
  · exact frees_reclaim hcoherent ⟨_, filled_of_first.entry, by decide, by decide, rfl⟩
  · exact .clear hnamed

end Store

end ExprHeap
