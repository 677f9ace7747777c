import ExprHeap.Proofs.Census
import ExprHeap.Proofs.Dialogues
import ExprHeap.Proofs.InterleavedSweep
import ExprHeap.Proofs.Outcomes

/-!
# A cleared store is as good as new

A store that has been used and cleared while no cycle was active takes the same steps as an empty
store of the same capacity, and both give the same answers, slot for slot, but for the generations
of the handles and the epochs and high water marks of the cycles (`Store.cleared_as_new`).

When a store has been cleared, its arena and the empty one are twins (`Arena.twins_clear`): each of
its slots is where the slot of the empty one will start, and the slots are stacked in the order in
which the empty one will make them.  From there the steps keep the twins twins.

That the table may have `2 ^ 32` slots, of which none is stacked again, makes no difference to any
step but the first, where the twins begin.
-/

namespace ExprHeap

namespace Arena

/-- **A cleared arena and an empty one are twins.** -/
theorem twins_clear {arena : Arena} {issued capacity : Nat} (hcoherent : arena.Coherent issued)
    (hidle : arena.cycleActive = false)
    (hcapacity : arena.capacity = min capacity Handle.indexBound) :
    ∃ past, Twins past (UInt32.ofNat arena.table.size).toNat (.empty capacity) arena.clear.2 := by
  -- what a cleared arena has behind it are the generations of its slots and its epochs
  let past : Past :=
    { start := fun index => (arena.clear.2.table.slot index).generation
      start_ne_zero := hcoherent.clear.generation_slot_ne_zero
      epochs := arena.epoch }
  refine
    ⟨past,
      { table := fun index => ?_
        vacant_eq := ?_
        size_eq := rfl
        capacity_eq := hcapacity
        epoch_eq := rfl
        cycleActive_eq := hidle
        begun := fun hactive => nomatch hactive
        whole := coherent_empty capacity
        coherent := ⟨_, hcoherent.clear⟩ }⟩
  · show _ = past.slot index .fresh
    rw [past.slot_fresh]
    show _ = Slot.mk (arena.clear.2.table.slot index).generation none
    rw [slot_clear, ← Slot.entry_vacated (arena.table.slot index)]
  · -- the slots stand on the stack in the order in which a new arena would issue them
    show (List.range _).map UInt32.ofNat = (List.range' 0 _).map UInt32.ofNat
    rw [List.range_eq_range']
    rfl

end Arena

namespace Dialogue

/-- Before the first step twin arenas are all that twin dialogues need. -/
theorem Twins.start {past : Past} {reused capacity : Nat} {used : Store}
    (htwins : Arena.Twins past reused (.empty capacity) used.arena) :
    Twins past reused (.start (.empty capacity)) (.start used) where
  arena := htwins
  handles_eq := rfl
  known handle hcontains := by
    simp [Dialogue.start, Store.empty, Arena.empty, Arena.contains, Table.entryOf?] at hcontains
  cycles := .nil

end Dialogue

namespace Store

variable {capacity : Nat} {store : Store}

/-- **A cleared store is as good as new.**  Clearing a store, however it has been used before,
answers how many nodes there were, and all their handles are turned down afterwards.  As no cycle
was active, the same steps get the same answers from the cleared store as from an empty one of the
same capacity, but for the generations of handles and the numbers of cycles, and leave as many
nodes. -/
theorem cleared_as_new (hreached : store.Reached capacity)
    (hidle : store.arena.cycleActive = false) :
    store.clear.1 = store.arena.handles.ncard ∧
      (∀ handle, store.arena.contains handle = true → store.clear.2.Refuses handle) ∧
      ∀ steps newSteps,
        (Dialogue.start store.clear.2).Alike (.start (.empty capacity)) steps newSteps →
        (Dialogue.start store.clear.2).unagedAnswers steps =
          (Dialogue.start (.empty capacity)).unagedAnswers newSteps := by
  obtain ⟨issued, hcoherent⟩ := hreached.coherent
  refine ⟨hcoherent.ncard_handles.symm, fun handle hcontains => ?_, fun steps newSteps halike => ?_⟩
  · obtain ⟨entry, hentry⟩ := Arena.exists_entry_of_contains hcontains
    refine refuses_of_not_contained (hcoherent.handle_generation_ne_zero hentry) ?_
    show (store.arena.clear.2.table.entryOf? handle).isSome = false
    rw [Arena.Coherent.entryOf?_clear]
    rfl
  · obtain ⟨past, htwins⟩ := Arena.twins_clear hcoherent hidle hreached.capacity_eq
    exact (Dialogue.Twins.start htwins).unagedAnswers_eq halike

/-- Allocates a byte of input and its negation, and sweeps both away. -/
def allocateAndSweep : List StoreStep :=
  [.allocate (.input 0) [] 8, .allocate (.unary .neg) [0] 8, .beginCycle, .node 1,
    .sweep 0 1 fun _ => false, .endCycle, .shade 0]

theorem alike_allocateAndSweep (first second : Dialogue) :
    first.Alike second allocateAndSweep allocateAndSweep :=
  .cons (.allocate _ _ _) (.cons (.allocate _ _ _) (.cons .beginCycle (.cons (.node _)
    (.cons (.sweep 0 1 fun _ _ _ _ _ => rfl) (.cons .endCycle (.cons (.shade _) .nil))))))

/-- A store that has held the two before goes through the steps as an empty one does. -/
theorem withNegation_as_new :
    withNegation.Reached 2 ∧ withNegation.arena.cycleActive = false ∧
      withNegation.clear.1 = withNegation.arena.handles.ncard ∧
      withNegation.clear.2.Refuses ⟨0, 1⟩ ∧
      (Dialogue.start withNegation.clear.2).unagedAnswers allocateAndSweep =
        [(.allocated (.fresh ⟨0, 0⟩), 1), (.allocated (.fresh ⟨1, 0⟩), 2), (.begun ⟨0, 0⟩, 2),
          (.named ⟨.unary .neg, [⟨0, 0⟩], 8⟩, 2), (.swept [⟨0, 0⟩, ⟨1, 0⟩], 0), (.done, 0),
          (.failed (.invalidHandle 0), 0)] := by
  have hidle : withNegation.arena.cycleActive = false := by cbv
  have hbyte : withNegation.arena.contains ⟨0, 1⟩ = true := by cbv
  obtain ⟨hcount, hrefuses, hanswers⟩ := cleared_as_new reached_withNegation hidle
  refine ⟨reached_withNegation, hidle, hcount, hrefuses _ hbyte, ?_⟩
  -- the cleared store has a past to go through, the new one has none, so the new one is evaluated
  rw [hanswers _ _ (alike_allocateAndSweep _ _)]
  cbv

/-- The handle that is given first is another one than it was before. -/
example : ((Dialogue.start withNegation.clear.2).take (.allocate (.input 0) [] 8)).1 =
    .allocated (.fresh ⟨0, 2⟩) := by cbv

end Store

end ExprHeap
