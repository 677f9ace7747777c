import ExprHeap.Proofs.InterleavedSweep

/-!
# Shading while a cycle sweeps

To shade a node, or to be answered with a node that is shared, is meant to keep it
and everything below it through the rest of the cycle.  Neither call checks more
than that the node itself is allocated, and while a cycle sweeps that is not
enough: a node that the sweep has yet to come to may stand above nodes that it
has taken away already, and what is gone does not come back.

The main statement says exactly when the promise is kept: when nothing below the
node is gone at the moment of the call.  No other discipline is asked of anybody,
neither before the call nor after it.
-/

namespace ExprHeap

namespace Store

variable {now after : Store} {epoch : Nat} {isLive : Handle → Bool} {root : Handle}

/-- The promise of a call that leads from `now` to `after` and keeps `root`: whatever follows in
this cycle, everything that lay below the node stays allocated; and in the next cycle a scan that
finds the node, among other intact ones, succeeds. -/
structure Lasting (epoch : Nat) (isLive : Handle → Bool) (root : Handle) (now after : Store) :
    Prop where
  allocated : ∀ later handle, now.arena.Below root handle →
    (after.sweepSteps epoch isLive later).arena.contains handle = true
  scannable : ∀ later early memory chunk regions,
    let next := ((after.sweepSteps epoch isLive later).perform .endCycle).openCycle early
    (∀ word ∈ wordsIn memory regions, ∀ other, next.arena.resolve? word = some other →
      other = root ∨ next.arena.Intact other) →
    ∃ live stats, scanRegions next.arena memory chunk regions = .ok (live, stats)

/-- The next cycle begins with all the nodes that this one ends with. -/
theorem extends_nextCycle (hcycle : after.arena.InCycle epoch) (early : List NodeRequest) :
    Arena.Extends after.arena ((after.perform .endCycle).openCycle early).arena := by
  obtain ⟨_, hcoherent⟩ := hcycle.coherent
  rw [arena_openCycle]
  exact hcoherent.endCycle.beginCycle.extends_applyAll early

/-- An intact node that a request shades is kept from then on with everything below it. -/
theorem node?_sweepSteps_of_root (hcycle : now.arena.InCycle epoch) {asked : NodeRequest}
    (hroot : root ∈ now.arena.rootsOf asked) (hintact : now.arena.Intact root)
    (later : List SweepStep) {handle : Handle} {node : Node}
    (hbelow : now.arena.Below root handle) (hnode : now.arena.node? handle = some node) :
    ((now.perform (.request asked)).sweepSteps epoch isLive later).arena.node? handle =
      some node := by
  obtain ⟨_, hcoherent⟩ := hcycle.coherent
  have harena := arena_request now asked
  have hkept : (now.arena.apply asked).Kept handle :=
    (hcoherent.kept_apply_iff hcycle.closed hcycle.active asked).mpr
      (.inr (.inr ⟨⟨root, hroot, hbelow⟩, hintact handle hbelow⟩))
  apply node?_sweepSteps_of_kept
  · rw [harena]
    exact hcycle.apply asked
  · rwa [harena]
  · rw [harena]
    exact hcoherent.extends_apply asked handle node hnode

theorem lasting_of_intact (hcycle : now.arena.InCycle epoch) {asked : NodeRequest}
    (hroot : root ∈ now.arena.rootsOf asked) (hintact : now.arena.Intact root) :
    Lasting epoch isLive root now (now.perform (.request asked)) := by
  have hasked : (now.perform (.request asked)).arena.InCycle epoch := by
    rw [arena_request]
    exact hcycle.apply asked
  constructor
  · -- all below the root is stamped at once, and no sweep of this cycle takes what is stamped
    intro later handle hbelow
    obtain ⟨node, hnode⟩ := Arena.contains_iff.mp (hintact handle hbelow)
    exact Arena.contains_of_node?
      (node?_sweepSteps_of_root hcycle hroot hintact later hbelow hnode)
  · intro later early memory chunk regions next hothers
    -- nothing below the root is lost before the next scan, so it finds the root intact
    have hended := inCycle_sweepSteps hasked isLive later
    obtain ⟨_, hcoherent⟩ := hended.coherent
    obtain ⟨_, hnext⟩ := hcoherent.endCycle.beginCycle.applyAll early
    have hnextCoherent : next.arena.Coherent _ := arena_openCycle _ early ▸ hnext
    have hrootIntact : next.arena.Intact root := hintact.of_kept fun handle node hbelow hnode =>
      extends_nextCycle hended early handle node
        (node?_sweepSteps_of_root hcycle hroot hintact later hbelow hnode)
    obtain ⟨live, stats, hscan, -⟩ := exact_scanRegions hnextCoherent memory chunk
      regions fun word hword other hother => by
        rcases hothers word hword other hother with rfl | hotherIntact
        · exact hrootIntact
        · exact hotherIntact
    exact ⟨live, stats, hscan⟩

/-- A call that shades `root` and brings about no node keeps its promise exactly if nothing below
`root` is gone. -/
theorem lasting_iff (hcycle : now.arena.InCycle epoch) {asked : NodeRequest}
    (hroot : root ∈ now.arena.rootsOf asked) (hborn : now.arena.bornBy asked = none) :
    Lasting epoch isLive root now (now.perform (.request asked)) ↔ now.arena.Intact root := by
  refine ⟨fun hlasting handle hbelow => ?_, lasting_of_intact hcycle hroot⟩
  obtain ⟨_, hcoherent⟩ := hcycle.coherent
  have hcontains := hlasting.allocated [] handle hbelow
  rw [sweepSteps_nil, arena_request, hcoherent.contains_apply_iff, hborn] at hcontains
  simpa using hcontains

/-- **Shading a node and sharing one keep what they promise exactly when nothing below the node
is gone**, in every store that calls can reach, at every point of every cycle. -/
theorem lasting_iff_intact {capacity : Nat} {store : Store} (hreached : store.Reached capacity)
    (early : List NodeRequest) (isLive : Handle → Bool) (steps : List SweepStep)
    (root : Handle) :
    let epoch := store.arena.epoch + 1
    let now := (store.openCycle early).sweepSteps epoch isLive steps
    (∀ after, now.shade root = .ok after →
      (Lasting epoch isLive root now after ↔ now.arena.Intact root)) ∧
    (∀ node after, now.allocate node = .ok (.shared root, after) →
      (Lasting epoch isLive root now after ↔ now.arena.Intact root)) := by
  intro epoch now
  obtain ⟨_, hcoherent⟩ := hreached.coherent
  have hopen : (store.openCycle early).arena.InCycle epoch := by
    rw [arena_openCycle]
    exact hcoherent.inCycle_beginCycle.applyAll early
  have hcycle : now.arena.InCycle epoch := inCycle_sweepSteps hopen isLive steps
  constructor
  · intro after hshade
    have hafter : now.perform (.request (.shade root)) = after := by
      simp only [perform, hshade]
    have hcontains : now.arena.contains root = true := by
      unfold Store.shade at hshade
      split at hshade
      · assumption
      · cases hshade
    rw [← hafter]
    exact lasting_iff hcycle (by simp [Arena.rootsOf_shade, hcontains]) rfl
  · intro node after hallocate
    have hafter : now.perform (.request (.allocate node)) = after := by
      simp only [perform, hallocate]
    have hshared := arena_allocate hallocate
    have hroots : root ∈ now.arena.rootsOf (.allocate node) := by
      simp [Arena.rootsOf, Arena.shadedBy, hshared]
    have hborn : now.arena.bornBy (.allocate node) = none := by
      simp only [Arena.bornBy, Arena.newborn?, hshared]
    rw [← hafter]
    exact lasting_iff hcycle hroots hborn

/-- The cycle finds neither of the two nodes and has swept one of their slots. -/
def sweptOnce (index : Nat) : Store :=
  (withNegation.openCycle []).sweepSteps (withNegation.arena.epoch + 1) LiveSet.empty.contains
    [.reclaim index]

/-- With the slot of the negation swept, the byte below it can still be kept, by shading it and by
asking for it again. -/
theorem lasting_byte :
    withNegation.Reached 2 ∧
      (∃ after, (sweptOnce 1).shade ⟨0, 1⟩ = .ok after ∧
        Lasting (withNegation.arena.epoch + 1) LiveSet.empty.contains ⟨0, 1⟩ (sweptOnce 1) after) ∧
      ∃ after, (sweptOnce 1).allocate ⟨.input 0, [], 8⟩ = .ok (.shared ⟨0, 1⟩, after) ∧
        Lasting (withNegation.arena.epoch + 1) LiveSet.empty.contains ⟨0, 1⟩ (sweptOnce 1)
          after := by
  obtain ⟨hshade, hshare⟩ := lasting_iff_intact reached_withNegation [] LiveSet.empty.contains
    [.reclaim 1] ⟨0, 1⟩
  have hnode : (sweptOnce 1).arena.node? ⟨0, 1⟩ = some ⟨.input 0, [], 8⟩ := by cbv
  have hinterned : (sweptOnce 1).arena.interned[(⟨.input 0, [], 8⟩ : Node)]? = some ⟨0, 1⟩ := by cbv
  have hintact : (sweptOnce 1).arena.Intact ⟨0, 1⟩ :=
    Arena.intact_of_children hnode (List.forall_mem_nil _)
  have hshared : (sweptOnce 1).arena.allocate ⟨.input 0, [], 8⟩ =
      .ok (.shared ⟨0, 1⟩, (sweptOnce 1).arena.shade ⟨0, 1⟩) :=
    Arena.allocate_shared rfl (List.forall_mem_nil _) hinterned
  have hanswer : (sweptOnce 1).allocate ⟨.input 0, [], 8⟩ = .ok (.shared ⟨0, 1⟩, { sweptOnce 1 with
      arena := (sweptOnce 1).arena.shade ⟨0, 1⟩
      internHits := (sweptOnce 1).internHits + 1 }) := by
    simp only [Store.allocate, hshared]
  refine ⟨reached_withNegation, ⟨_, if_pos hintact.contains, ?_⟩, ⟨_, hanswer, ?_⟩⟩
  · exact (hshade _ (if_pos hintact.contains)).mpr hintact
  · exact (hshare _ _ hanswer).mpr hintact

/-- With the slot of the byte swept, the negation can be shaded, and the byte below it is gone. -/
theorem not_lasting_negation :
    withNegation.Reached 2 ∧
      scanRegions (withNegation.openCycle []).arena .zeroed 1 [] = .ok (.empty, ⟨0, 0, 0, 0, 0⟩) ∧
      (sweptOnce 0).arena.Below ⟨1, 1⟩ ⟨0, 1⟩ ∧
      ∃ after, (sweptOnce 0).shade ⟨1, 1⟩ = .ok after ∧
        after.arena.contains ⟨0, 1⟩ = false ∧
        ¬ Lasting (withNegation.arena.epoch + 1) LiveSet.empty.contains ⟨1, 1⟩ (sweptOnce 0)
          after := by
  have hnode : (sweptOnce 0).arena.node? ⟨1, 1⟩ = some ⟨.unary .neg, [⟨0, 1⟩], 8⟩ := by cbv
  have hbelow : (sweptOnce 0).arena.Below ⟨1, 1⟩ ⟨0, 1⟩ :=
    .child .here hnode (List.mem_singleton_self _)
  -- the shading reaches the parent only, since the child has gone before
  have hgone : ((sweptOnce 0).arena.shade ⟨1, 1⟩).contains ⟨0, 1⟩ = false := by
    rw [Arena.contains_shade]
    cbv
  refine ⟨reached_withNegation, scanRegions_nil _ _ _, hbelow, _,
    if_pos (Arena.contains_of_node? hnode), hgone, fun hlasting => ?_⟩
  have hcontains := hlasting.allocated [] _ hbelow
  rw [sweepSteps_nil] at hcontains
  exact absurd hcontains (by rw [hgone]; decide)

end Store

end ExprHeap
