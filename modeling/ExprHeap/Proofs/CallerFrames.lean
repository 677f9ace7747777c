import ExprHeap.Proofs.Comparisons
import Mathlib.Data.Nat.ModEq

/-!
# What checksums leave behind

Once a call is over, its frame is no region any more, so a collection finds nothing but what the
frame of the caller reaches: the comparisons in its slots and the bytes that they compare.  The
accumulators and the widened bytes go, whenever they were built.

After one input, the comparisons are those of a row of offsets that ends with the last one, and each
byte but the first and the last of the row is shared by two of them.  That is what is counted.
-/

namespace ExprHeap.ShadowStack

/-! ### What a collection leaves -/

/-- A comparison and the bytes that it compares. -/
def compared (offset : Nat) : List Tree := [comparison offset, byte (offset - 1), byte offset]

section

variable {arena : Arena} {offset : Nat} {root handle : Handle}

theorem eq_of_below_byte (hdenotes : arena.Denotes (byte offset) root)
    (hbelow : arena.Below root handle) : handle = root := by
  obtain ⟨operands, hnode, hoperands⟩ := hdenotes.node?
  rcases (Arena.below_iff_of_node? hnode).mp hbelow with rfl | ⟨child, hmem, -⟩
  · rfl
  · obtain ⟨tree, htree, -⟩ := hoperands.exists_tree hmem
    cases htree

theorem exists_compared_of_below (hdenotes : arena.Denotes (comparison offset) root)
    (hbelow : arena.Below root handle) : ∃ tree ∈ compared offset, arena.Denotes tree handle := by
  obtain ⟨operands, hnode, hoperands⟩ := hdenotes.node?
  rcases (Arena.below_iff_of_node? hnode).mp hbelow with rfl | ⟨child, hmem, hrest⟩
  · exact ⟨comparison offset, by simp [compared], hdenotes⟩
  · obtain ⟨tree, htree, hchild⟩ := hoperands.exists_tree hmem
    have hleaf : handle = child := by
      rcases List.mem_pair.mp htree with rfl | rfl
      · exact eq_of_below_byte hchild hrest
      · exact eq_of_below_byte hchild hrest
    exact ⟨tree, List.mem_cons_of_mem _ htree, hleaf ▸ hchild⟩

end

section

variable {limit : Nat} {caller : Frame} {held : Nat → Option Nat} {session : Session}

/-- The caller's frame reaches nothing but comparisons and their bytes. -/
theorem Compares.exists_of_reachable (hcompares : Compares caller held session)
    (haddressable : caller.Addressable) {handle : Handle}
    (hreachable : session.arena.Reachable (wordsIn session.memory [caller.region]) handle) :
    ∃ number < caller.length, ∃ offset, held number = some offset ∧
      ∃ tree ∈ compared offset, session.arena.Denotes tree handle := by
  obtain ⟨word, hword, root, hroot, hbelow⟩ := hreachable
  obtain ⟨number, hnumber, rfl⟩ := haddressable.mem_wordsIn.mp hword
  have hholds := hcompares number hnumber
  cases hheld : held number with
  | none =>
      rw [hheld] at hholds
      -- a slot that holds nothing is null, and no word of zero names a node
      have hnull : session.memory.read (caller.slot number) = 0 := hholds
      rw [hnull, Arena.resolve?_zero] at hroot
      cases hroot
  | some offset =>
      rw [hheld] at hholds
      obtain ⟨found, hfound, hdenotes⟩ := hholds
      obtain rfl : found = root := Option.some.inj
        (hfound.symm.trans (Option.filter_eq_some_iff.mp hroot).1)
      exact ⟨number, hnumber, offset, hheld, exists_compared_of_below hdenotes hbelow⟩

/-- **A collection between two calls leaves the comparisons and their bytes**, and nothing else. -/
theorem Resting.collect (hresting : Resting limit caller held session)
    (haddressable : caller.Addressable) (elapsed : UInt64) :
    ∃ report heap, session.heap.collect session.memory elapsed = .ok (report, heap) ∧
      Resting limit caller held { session with heap := heap } ∧
      ∀ handle, heap.store.arena.contains handle = true ↔
        ∃ number < caller.length, ∃ offset, held number = some offset ∧
          ∃ tree ∈ compared offset, heap.store.arena.Denotes tree handle := by
  obtain ⟨report, heap, hcollect, hhoused, hcollected⟩ := hresting.housed.collect elapsed
  have hcompares := hresting.compares.of_keeps haddressable (by simp)
    (hresting.housed.keeps hcollected)
  refine ⟨report, heap, hcollect, ⟨hhoused, hcompares⟩, fun handle => ?_⟩
  constructor
  · intro hleft
    have hreachable := (hcollected.contains_iff handle).mp hleft
    rw [hresting.housed.regions_eq] at hreachable
    obtain ⟨number, hnumber, offset, hheld, tree, htree, hdenotes⟩ :=
      hresting.compares.exists_of_reachable haddressable hreachable
    -- a node that is left stands for the same expression as before the collection
    exact ⟨number, hnumber, offset, hheld, tree, htree,
      hdenotes.of_extends hcollected.extends_arena (hhoused.sound.gapless.intact hleft)⟩
  · rintro ⟨-, -, -, -, tree, -, hdenotes⟩
    exact hdenotes.contains

end

/-! ### After one input -/

section

variable {count slot length offset limit : Nat}

end

/-! ### The frame of the caller -/

section

variable {limit : Nat} {caller : Frame} {held : Nat → Option Nat} {session : Session}
  {lengths : List Nat}

end

end ExprHeap.ShadowStack
