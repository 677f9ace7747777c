import ExprHeap.Proofs.Marking
import Mathlib.Data.Set.Card

/-!
# How many nodes there are

The size of an arena is kept by hand, one more for each node that is placed and one less for each
that goes.  In a coherent arena it is the number of the handles that name a node: no two of them
have the same index, and the indices they have are those issued that are not on the stack.
-/

namespace ExprHeap

variable {arena : Arena} {issued : Nat}

/-- The members of a list without duplicates are as many as it is long. -/
theorem ncard_of_nodup {α : Type} [DecidableEq α] {list : List α} {set : Set α}
    (hnodup : list.Nodup) (hmem : ∀ value, value ∈ list ↔ value ∈ set) :
    set.ncard = list.length := by
  have hset : set = ↑list.toFinset := by
    ext value
    simp [hmem]
  rw [hset, Set.ncard_coe_finset, List.toFinset_card_of_nodup hnodup]

namespace Arena

/-- The handles that name a node. -/
def handles (arena : Arena) : Set Handle := {handle | arena.contains handle = true}

theorem injOn_index (arena : Arena) :
    Set.InjOn (fun handle : Handle => handle.index.toNat) arena.handles :=
  fun _ hfirst _ hsecond => Marking.eq_of_index_eq hfirst hsecond

namespace Coherent

/-- The indices of the nodes are those that have been issued and are not vacant. -/
theorem image_index (hcoherent : arena.Coherent issued) :
    (fun handle : Handle => handle.index.toNat) '' arena.handles =
      ↑(Finset.range issued \ (arena.vacant.map UInt32.toNat).toFinset) := by
  ext index
  simp only [Set.mem_image, Finset.coe_sdiff, Finset.coe_range, Set.mem_sdiff, Set.mem_Iio,
    List.coe_toFinset, Set.mem_ofPred_eq]
  constructor
  · rintro ⟨handle, hhandle, rfl⟩
    obtain ⟨entry, hentry⟩ := Option.isSome_iff_exists.mp hhandle
    refine ⟨hcoherent.index_lt hentry, fun hvacant => ?_⟩
    obtain ⟨other, hother, hsame⟩ := List.mem_map.mp hvacant
    exact hcoherent.not_mem_vacant hentry (UInt32.toNat_inj.mp hsame ▸ hother)
  · rintro ⟨hissued, hvacant⟩
    have hsize := Nat.lt_of_lt_of_le hissued hcoherent.issued_le_size
    -- an index that was issued fits a handle, so the slot has a handle of its own
    have hfits : (UInt32.ofNat index).toNat = index :=
      UInt32.toNat_ofNat_of_lt' (Nat.lt_of_lt_of_le hissued hcoherent.issued_le)
    cases hentry : arena.table[index].entry with
    | none =>
        refine absurd (List.mem_map.mpr ⟨UInt32.ofNat index, ?_, hfits⟩) hvacant
        rw [hcoherent.mem_vacant, hfits]
        exact ⟨hissued, _, Array.getElem?_eq_getElem hsize, hentry⟩
    | some entry =>
        refine ⟨⟨UInt32.ofNat index, arena.table[index].generation⟩, ?_, hfits⟩
        refine Option.isSome_iff_exists.mpr ⟨entry, Table.entryOf?_eq_some_iff.mpr ?_⟩
        rw [hfits, Array.getElem?_eq_getElem hsize, ← hentry]

theorem finite_handles (hcoherent : arena.Coherent issued) : arena.handles.Finite := by
  refine Set.Finite.of_finite_image ?_ arena.injOn_index
  rw [hcoherent.image_index]
  exact Finset.finite_toSet _

/-- **The size of an arena is the number of the handles that name a node.** -/
theorem ncard_handles (hcoherent : arena.Coherent issued) : arena.handles.ncard = arena.size := by
  have hvacant : (arena.vacant.map UInt32.toNat).Nodup :=
    List.Nodup.map (fun _ _ h => UInt32.toNat_inj.mp h) hcoherent.vacant_nodup
  have hsubset : (arena.vacant.map UInt32.toNat).toFinset ⊆ Finset.range issued := by
    intro index hindex
    obtain ⟨slot, hslot, rfl⟩ := List.mem_map.mp (List.mem_toFinset.mp hindex)
    exact Finset.mem_range.mpr ((hcoherent.mem_vacant slot).mp hslot).1
  -- a slot that was issued is on the stack or names one node
  calc arena.handles.ncard
      = ((fun handle : Handle => handle.index.toNat) '' arena.handles).ncard :=
        arena.injOn_index.ncard_image.symm
    _ = issued - arena.vacant.length := by
        rw [hcoherent.image_index, Set.ncard_coe_finset, Finset.card_sdiff_of_subset hsubset,
          Finset.card_range, List.toFinset_card_of_nodup hvacant, List.length_map]
    _ = arena.size := by
        have := hcoherent.size_add_vacant
        omega

/-- No more nodes can be listed than there are. -/
theorem length_le_size (hcoherent : arena.Coherent issued) {handles : List Handle}
    (hnodup : handles.Nodup) (hall : ∀ handle ∈ handles, arena.contains handle = true) :
    handles.length ≤ arena.size := by
  rw [← hcoherent.ncard_handles, ← ncard_of_nodup hnodup fun _ => Iff.rfl]
  exact Set.ncard_le_ncard hall hcoherent.finite_handles

end Coherent

end Arena

end ExprHeap
