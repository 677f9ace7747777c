import ExprHeap.Store.Sweep
import ExprHeap.Proofs.Barrier
import ExprHeap.Proofs.Batches

/-!
# What a sweep leaves

The sweep reclaims the slots of a range one after the other.  Whether the node of
a handle is reclaimable is for its own entry alone to say, so reclaiming another
slot does not change it, and after the sweep exactly the reclaimable nodes within
the range are gone (`Coherent.node?_reclaimAll`).  Neither the order of the slots
nor the size of the batches plays a part in that.
-/

namespace ExprHeap

namespace Arena

variable {arena : Arena} {issued : Nat} {epoch : Nat} {isLive : Handle → Bool}

/-- Reclaims slots one after the other. -/
def reclaimAll (arena : Arena) (epoch : Nat) (isLive : Handle → Bool) (indices : List Nat) :
    Arena :=
  indices.foldl (fun arena index =>
    let (_, left) := arena.reclaim epoch isLive index
    left) arena

@[simp] theorem reclaimAll_nil : arena.reclaimAll epoch isLive [] = arena := rfl

@[simp] theorem reclaimAll_cons (index : Nat) (rest : List Nat) :
    arena.reclaimAll epoch isLive (index :: rest) =
      (arena.reclaim epoch isLive index).2.reclaimAll epoch isLive rest := rfl

@[simp] theorem reclaimAll_epoch (indices : List Nat) :
    (arena.reclaimAll epoch isLive indices).epoch = arena.epoch := by
  induction indices generalizing arena with
  | nil => rfl
  | cons index rest ih => rw [reclaimAll_cons, ih, reclaim_epoch]

theorem Coherent.reclaimAll (hcoherent : arena.Coherent issued) (indices : List Nat) :
    (arena.reclaimAll epoch isLive indices).Coherent issued := by
  induction indices generalizing arena with
  | nil => exact hcoherent
  | cons index rest ih => exact ih (hcoherent.reclaim epoch isLive index)

/-- Reclaiming a slot makes no other node reclaimable, nor does it save one. -/
theorem Coherent.reclaimable_reclaim_iff (hcoherent : arena.Coherent issued) {index : Nat}
    {handle : Handle} (hindex : handle.index.toNat ≠ index) :
    (arena.reclaim epoch isLive index).2.Reclaimable epoch isLive handle ↔
      arena.Reclaimable epoch isLive handle := by
  unfold Reclaimable
  rw [hcoherent.entryOf?_reclaim, if_neg fun h => hindex h.1]

open Classical in
/-- **Exactly the reclaimable nodes within the range are gone.** -/
theorem Coherent.node?_reclaimAll (hcoherent : arena.Coherent issued) (indices : List Nat)
    (handle : Handle) :
    (arena.reclaimAll epoch isLive indices).node? handle =
      if handle.index.toNat ∈ indices ∧ arena.Reclaimable epoch isLive handle then none
      else arena.node? handle := by
  induction indices generalizing arena with
  | nil => simp
  | cons index rest ih =>
      rw [reclaimAll_cons, ih (hcoherent.reclaim epoch isLive index), hcoherent.node?_reclaim]
      by_cases hindex : handle.index.toNat = index
      · -- what this step takes away stays away, and what it leaves was not reclaimable
        by_cases hreclaimable : arena.Reclaimable epoch isLive handle
        · simp [hindex, hreclaimable]
        · have hafter : ¬ (arena.reclaim epoch isLive index).2.Reclaimable epoch isLive handle := by
            unfold Reclaimable at hreclaimable ⊢
            rwa [hcoherent.entryOf?_reclaim, if_neg fun h => hreclaimable h.2]
          simp [hreclaimable, hafter]
      · simp [hindex, hcoherent.reclaimable_reclaim_iff hindex]

theorem Coherent.contains_reclaimAll_iff (hcoherent : arena.Coherent issued)
    {indices : List Nat} {handle : Handle} :
    (arena.reclaimAll epoch isLive indices).contains handle = true ↔
      arena.contains handle = true ∧
        ¬ (handle.index.toNat ∈ indices ∧ arena.Reclaimable epoch isLive handle) := by
  rw [contains_iff, contains_iff]
  simp only [hcoherent.node?_reclaimAll]
  split
  · simp_all
  · simp_all

theorem Coherent.node?_of_reclaimAll (hcoherent : arena.Coherent issued) {indices : List Nat}
    {handle : Handle} {node : Node}
    (hnode : (arena.reclaimAll epoch isLive indices).node? handle = some node) :
    arena.node? handle = some node := by
  rw [hcoherent.node?_reclaimAll] at hnode
  split at hnode
  · cases hnode
  · exact hnode

/-- An allocated node of the current epoch is reclaimable unless it is kept or live. -/
theorem Coherent.reclaimable_iff (hcoherent : arena.Coherent issued) {handle : Handle} :
    arena.Reclaimable arena.epoch isLive handle ↔
      arena.contains handle = true ∧ ¬ arena.Kept handle ∧ isLive handle = false := by
  constructor
  · intro hreclaimable
    have hnotKept := fun hkept : arena.Kept handle => hkept.not_reclaimable hreclaimable
    obtain ⟨entry, hentry, -, -, hlive⟩ := hreclaimable
    exact ⟨by simp [Arena.contains, hentry], hnotKept, hlive⟩
  · rintro ⟨hcontains, hnotKept, hlive⟩
    obtain ⟨entry, hentry⟩ := exists_entry_of_contains hcontains
    -- no node is younger than the epoch, so one that was not born in it was born before it
    have hborn := (hcoherent.stamps_le handle entry hentry).1
    have hisKept : ¬ entry.isKept arena.epoch = true := fun h => hnotKept ⟨entry, hentry, h⟩
    simp only [Entry.isKept, Bool.or_eq_true, beq_iff_eq, not_or] at hisKept
    exact ⟨entry, hentry, by omega, hisKept.1, hlive⟩

end Arena

/-! ### The sweep of the store -/

theorem Sweep.arena_visit (epoch : Nat) (isLive : Handle → Bool) (sweep : Sweep) (index : Nat) :
    (sweep.visit epoch isLive index).arena = (sweep.arena.reclaim epoch isLive index).2 := by
  unfold Sweep.visit
  split
  · rename_i hreclaim
    rw [hreclaim]
  · rename_i hreclaim
    rw [hreclaim]

theorem Sweep.arena_foldl_visit (epoch : Nat) (isLive : Handle → Bool) (sweep : Sweep)
    (indices : List Nat) :
    (indices.foldl (Sweep.visit epoch isLive) sweep).arena =
      sweep.arena.reclaimAll epoch isLive indices := by
  induction indices generalizing sweep with
  | nil => rfl
  | cons index rest ih => rw [List.foldl_cons, ih, Sweep.arena_visit, Arena.reclaimAll_cons]

/-- Batch after batch, the slots of the range are visited in order. -/
theorem Sweep.foldl_visitSpan (epoch : Nat) (isLive : Handle → Bool) (sweep : Sweep)
    (batch start stop : Nat) :
    (spans batch start stop).foldl (Sweep.visitSpan epoch isLive) sweep =
      (List.range' start (stop - start)).foldl (Sweep.visit epoch isLive) sweep := by
  rw [← flatMap_indices_spans batch, List.foldl_flatMap]
  rfl

/-- A sweep reclaims the slots of its range in order, whatever the batches. -/
theorem Store.arena_sweep (store : Store) (batch epoch : Nat) (isLive : Handle → Bool)
    (start stop : Nat) :
    (store.sweep batch epoch isLive start stop).2.arena =
      store.arena.reclaimAll epoch isLive (List.range' start (stop - start)) := by
  show ((spans batch start stop).foldl (Sweep.visitSpan epoch isLive) _).arena = _
  rw [Sweep.foldl_visitSpan, Sweep.arena_foldl_visit]

end ExprHeap
