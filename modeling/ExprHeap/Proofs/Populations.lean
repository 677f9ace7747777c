import ExprHeap.Proofs.Accounting
import ExprHeap.Proofs.Outcomes
import ExprHeap.Proofs.Pauses
import ExprHeap.Proofs.Sharing

/-!
# Room for a family of expressions

A program that only ever builds expressions of a known list needs room for that list and no more,
whatever it builds in which order, however often, and whatever is collected in between: equal
expressions share their node, so the store never has more nodes than there are expressions in the
list, and one that is not there finds the store below its capacity.

An arena is *populated* by a list of expressions if each of its nodes stands for one of them.
`Session.Housed` is what such a program needs of a session: a sound session, populated by a list
that there is room for, with the regions it has registered.  Building a member of the list, writing
into the memory and collecting all keep it.

No setting makes room for more nodes than handles can tell apart.  If the list is longer than that,
the store may be full before the list is through, and that is all that can go wrong
(`Session.Housed.build`).
-/

namespace ExprHeap

namespace Arena

variable {arena before after : Arena} {issued : Nat} {family : List Tree}

/-- Every node stands for one of these expressions. -/
def Populated (arena : Arena) (family : List Tree) : Prop :=
  ∀ handle, arena.contains handle = true → ∃ tree ∈ family, arena.Denotes tree handle

/-- Each node can be sent to the position of its expression, no two to the same. -/
theorem Coherent.exists_positions (hcoherent : arena.Coherent issued)
    (hpopulated : arena.Populated family) :
    ∃ positionOf : Handle → Nat, Set.InjOn positionOf arena.handles ∧
      ∀ handle ∈ arena.handles, ∃ hlt : positionOf handle < family.length,
        arena.Denotes family[positionOf handle] handle := by
  have hposition : ∀ handle, ∃ position, arena.contains handle = true →
      ∃ hlt : position < family.length, arena.Denotes family[position] handle := by
    intro handle
    by_cases hcontains : arena.contains handle = true
    · obtain ⟨tree, htree, hdenotes⟩ := hpopulated handle hcontains
      obtain ⟨position, hlt, rfl⟩ := List.getElem_of_mem htree
      exact ⟨position, fun _ => ⟨hlt, hdenotes⟩⟩
    · exact ⟨0, fun h => absurd h hcontains⟩
  -- a handle that names nothing is put anywhere, so that the position is a function of all handles
  choose positionOf hpositionOf using hposition
  refine ⟨positionOf, ?_, hpositionOf⟩
  intro first hfirst second hsecond hsame
  obtain ⟨hlt, hdenotes⟩ := hpositionOf first hfirst
  obtain ⟨hlt', hdenotes'⟩ := hpositionOf second hsecond
  simp only [← hsame] at hdenotes'
  exact Denotes.unique hcoherent hdenotes hdenotes'

/-- **While one of the expressions is missing, there are fewer nodes than expressions.** -/
theorem Coherent.size_lt_of_missing (hcoherent : arena.Coherent issued)
    (hpopulated : arena.Populated family) {tree : Tree} (hmem : tree ∈ family)
    (hmissing : ∀ handle, ¬ arena.Denotes tree handle) : arena.size < family.length := by
  obtain ⟨positionOf, hinjective, hdenoted⟩ := hcoherent.exists_positions hpopulated
  obtain ⟨gap, hgap, hgapTree⟩ := List.getElem_of_mem hmem
  have hmaps : ∀ handle ∈ arena.handles,
      positionOf handle ∈ ((Finset.range family.length).erase gap : Set Nat) := by
    intro handle hhandle
    obtain ⟨hlt, hdenotes⟩ := hdenoted handle hhandle
    refine Finset.mem_coe.mpr (Finset.mem_erase.mpr ⟨?_, Finset.mem_range.mpr hlt⟩)
    rintro rfl
    exact hmissing handle (hgapTree ▸ hdenotes)
  -- the nodes fit into the family without the place of what is missing
  have hcard := Set.ncard_le_ncard_of_injOn positionOf hmaps hinjective (Finset.finite_toSet _)
  rw [hcoherent.ncard_handles, Set.ncard_coe_finset,
    Finset.card_erase_of_mem (Finset.mem_range.mpr hgap), Finset.card_range] at hcard
  omega

theorem Populated.of_extends (hpopulated : before.Populated family)
    (hextends : Extends after before) (hgapless : after.ChildrenAllocated) :
    after.Populated family := by
  intro handle hcontains
  obtain ⟨tree, hmem, hdenotes⟩ := hpopulated handle (hextends.contains hcontains)
  exact ⟨tree, hmem, hdenotes.of_extends hextends (hgapless.intact hcontains)⟩

theorem DenotesAll.contains {trees : List Tree} {handles : List Handle}
    (hall : arena.DenotesAll trees handles) :
    ∀ handle ∈ handles, arena.contains handle = true := by
  intro handle hmem
  obtain ⟨tree, -, hdenotes⟩ := hall.exists_tree hmem
  exact hdenotes.contains

theorem DenotesAll.mono (hextends : Extends before after) {trees : List Tree}
    {handles : List Handle} (hall : before.DenotesAll trees handles) :
    after.DenotesAll trees handles :=
  hall.of_kept fun _ _ other node _ => hextends other node

/-- An expression whose operands are there, and which has no node yet, is missing. -/
theorem Coherent.missing_of_interned (hcoherent : arena.Coherent issued) {op : Op}
    {width : UInt32} {children : List Tree} {operands : List Handle}
    (hoperands : arena.DenotesAll children operands)
    (hnew : arena.interned[(⟨op, operands, width⟩ : Node)]? = none) (handle : Handle) :
    ¬ arena.Denotes (.node op width children) handle := by
  intro hdenotes
  obtain ⟨others, hnode, hothers⟩ := hdenotes.node?
  obtain rfl := DenotesAll.unique hcoherent hothers hoperands
  rw [(hcoherent.interned_iff _ handle).mpr hnode] at hnew
  cases hnew

end Arena

namespace Heap

variable {heap : Heap} {issued : Nat} {family : List Tree}

/-- What the heap that has built an expression of the family is like. -/
structure Builds (family : List Tree) (tree : Tree) (handle : Handle) (before after : Heap) :
    Prop where
  denotes : after.store.arena.Denotes tree handle
  extends_arena : Arena.Extends before.store.arena after.store.arena
  populated : after.store.arena.Populated family
  capacity_eq : after.store.arena.capacity = before.store.arena.capacity
  registry_eq : after.registry = before.registry

/-- What an allocation that succeeds has built. -/
theorem builds_of_allocated (hcoherent : heap.store.arena.Coherent issued)
    (hpopulated : heap.store.arena.Populated family) {construction : Construction} {op : Op}
    {width : UInt32} {children : List Tree} {operands : List Handle}
    (hask : construction.toNode heap.store.widthOf = .ok ⟨op, operands, width⟩)
    (hoperands : heap.store.arena.DenotesAll children operands)
    (hmem : .node op width children ∈ family) {allocation : Allocation} {arena : Arena}
    (hallocate : heap.store.arena.allocate ⟨op, operands, width⟩ = .ok (allocation, arena)) :
    ∃ after, heap.build construction = .ok (allocation.handle, after) ∧
      Builds family (.node op width children) allocation.handle heap after := by
  obtain ⟨after, hbuild, harena⟩ := build_of_allocated hask hallocate
  obtain ⟨_, _, hframe⟩ := Session.exists_of_build hbuild
  have hrequest := (Arena.request_of_ok hallocate).symm
  have hextends := hcoherent.extends_request ⟨op, operands, width⟩
  -- the operands denote what they did before, so whatever names the node denotes the tree
  have hpart : ∀ handle, after.store.arena.node? handle = some ⟨op, operands, width⟩ →
      after.store.arena.Denotes (.node op width children) handle := by
    rw [harena, hrequest]
    exact fun handle hnode => Arena.denotes_node hnode (hoperands.mono hextends)
  refine ⟨after, hbuild, hpart _ ?_, ?_, ?_, ?_, ?_⟩
  · rw [harena]
    exact hcoherent.node?_of_allocate hallocate
  · rw [harena, hrequest]
    exact hextends
  · -- the node that is born stands for the new expression, and any other for what it did before
    intro handle hcontains
    obtain ⟨node, hnode⟩ := Arena.contains_iff.mp hcontains
    by_cases hborn : heap.store.arena.newborn? ⟨op, operands, width⟩ = some handle
    · refine ⟨_, hmem, hpart handle ?_⟩
      rw [harena, hrequest, hcoherent.node?_request, if_pos hborn]
    · rw [harena, hrequest, hcoherent.node?_request, if_neg hborn] at hnode
      obtain ⟨tree, htree, hdenotes⟩ := hpopulated handle (Arena.contains_of_node? hnode)
      rw [harena, hrequest]
      exact ⟨tree, htree, hdenotes.mono hextends⟩
  · rw [harena, hrequest]
    exact Arena.call_capacity _ (.allocate _)
  · rw [hframe]

/-- **A member of the family is built, or there is no room for the family.** -/
theorem build_member (hcoherent : heap.store.arena.Coherent issued)
    (hpopulated : heap.store.arena.Populated family) {construction : Construction} {op : Op}
    {width : UInt32} {children : List Tree} {operands : List Handle}
    (hask : construction.toNode heap.store.widthOf = .ok ⟨op, operands, width⟩)
    (harity : operands.length = op.arity)
    (hoperands : heap.store.arena.DenotesAll children operands)
    (hmem : .node op width children ∈ family) :
    (∃ handle after, heap.build construction = .ok (handle, after) ∧
      Builds family (.node op width children) handle heap after) ∨
    heap.store.arena.capacity < family.length ∧
      heap.build construction = .error (.outOfMemory heap.store.arena.capacity) := by
  have hadmits : heap.store.Admits ⟨op, operands, width⟩ := ⟨harity, hoperands.contains⟩
  have hbuilt : ∀ {allocation arena},
      heap.store.arena.allocate ⟨op, operands, width⟩ = .ok (allocation, arena) →
      ∃ handle after, heap.build construction = .ok (handle, after) ∧
        Builds family (.node op width children) handle heap after := fun hallocate =>
    ⟨_, builds_of_allocated hcoherent hpopulated hask hoperands hmem hallocate⟩
  cases hinterned : heap.store.arena.interned[(⟨op, operands, width⟩ : Node)]? with
  | some handle =>
      exact .inl (hbuilt (Store.arena_allocate (hadmits.allocate_of_interned hinterned)))
  | none =>
      -- what is not interned is missing, and then the family is larger than the store
      have hsize := hcoherent.size_lt_of_missing hpopulated hmem
        (hcoherent.missing_of_interned hoperands hinterned)
      rcases Nat.lt_or_ge heap.store.size heap.store.arena.capacity with hroom | hfull
      · exact .inl (hbuilt (Store.arena_allocate (hadmits.allocate_of_room hinterned hroom)))
      · refine .inr ⟨Nat.lt_of_le_of_lt hfull hsize, ?_⟩
        simp only [build, hask, allocate, hadmits.allocate_of_full hinterned hfull]

end Heap

/-! ### What a collection leaves of the capacity -/

theorem Arena.reclaimAll_capacity (arena : Arena) (epoch : Nat) (isLive : Handle → Bool)
    (indices : List Nat) :
    (arena.reclaimAll epoch isLive indices).capacity = arena.capacity := by
  induction indices generalizing arena with
  | nil => rfl
  | cons index rest ih =>
      rw [reclaimAll_cons, ih]
      exact arena.call_capacity (.reclaim epoch isLive index)

theorem Heap.capacity_of_collect {heap after : Heap} {memory : Memory} {elapsed : UInt64}
    {report : Report} (hcollect : heap.collect memory elapsed = .ok (report, after)) :
    after.store.arena.capacity = heap.store.arena.capacity := by
  cases hscan : heap.beginCycle.2.scan memory with
  | error fault =>
      simp only [collect, hscan] at hcollect
      cases hcollect
  | ok found =>
      obtain ⟨live, stats, scanned⟩ := found
      rw [collect_of_scan hscan] at hcollect
      -- a scan leaves the arena alone, and the sweep only takes nodes away
      obtain ⟨-, _, rfl⟩ := scanRegions_of_scan hscan
      rw [(finished_of_finishCycle hcollect).arena_eq]
      show (Store.sweep _ _ _ _ _ _).2.arena.capacity = _
      rw [Store.arena_sweep, Arena.reclaimAll_capacity]
      rfl

namespace Session

variable {session : Session}

/-! ### Housed sessions -/

variable {family : List Tree} {regions : List Region}

/-- A sound session populated by a family of expressions, with room for them or else for as many
nodes as handles can tell apart, and the regions that a collection would read. -/
structure Housed (family : List Tree) (regions : List Region) (session : Session) : Prop where
  sound : session.Sound
  populated : session.arena.Populated family
  room : family.length ≤ session.arena.capacity ∨ session.arena.capacity = Handle.indexBound
  regions_eq : session.heap.snapshotRegions = regions

/-- Whether a session is housed is told by its nodes and its regions. -/
theorem Housed.of_eq {after : Session} {others : List Region}
    (hhoused : session.Housed family regions) (harena : after.arena = session.arena)
    (hregions : after.heap.snapshotRegions = others) : after.Housed family others where
  sound := ⟨harena ▸ hhoused.sound.coherent, harena ▸ hhoused.sound.gapless,
    harena ▸ hhoused.sound.idle⟩
  populated := harena ▸ hhoused.populated
  room := harena ▸ hhoused.room
  regions_eq := hregions

theorem Housed.write (hhoused : session.Housed family regions) (memory : Memory) :
    Housed family regions { session with memory := memory } :=
  hhoused.of_eq rfl hhoused.regions_eq

theorem Housed.note (hhoused : session.Housed family regions) (events : List Event) :
    Housed family regions { session with heap := session.heap.note events } :=
  hhoused.of_eq rfl hhoused.regions_eq

/-- **Members of the family are built**, unless they are more than handles can tell apart. -/
theorem Housed.build (hhoused : session.Housed family regions) {construction : Construction}
    {op : Op} {width : UInt32} {children : List Tree} {operands : List Handle}
    (hask : construction.toNode session.heap.store.widthOf = .ok ⟨op, operands, width⟩)
    (harity : operands.length = op.arity)
    (hoperands : session.arena.DenotesAll children operands)
    (hmem : .node op width children ∈ family) :
    (∃ handle after, session.heap.build construction = .ok (handle, after) ∧
      Housed family regions { session with heap := after } ∧
      Arena.Extends session.arena after.store.arena ∧
      after.store.arena.Denotes (.node op width children) handle) ∨
    Handle.indexBound < family.length ∧
      session.heap.build construction = .error (.outOfMemory Handle.indexBound) := by
  obtain ⟨_, hcoherent⟩ := hhoused.sound.coherent
  rcases Heap.build_member hcoherent hhoused.populated hask harity hoperands hmem with
    ⟨handle, after, hbuild, hbuilds⟩ | ⟨hcrowded, hfull⟩
  · have hrequest : session.request (.build construction) = { session with heap := after } := by
      simp only [request, hbuild]
    refine .inl ⟨handle, after, hbuild, ?_, hbuilds.extends_arena, hbuilds.denotes⟩
    refine ⟨hrequest ▸ hhoused.sound.request _, hbuilds.populated,
      hbuilds.capacity_eq.symm ▸ hhoused.room, ?_⟩
    have hregions := hhoused.regions_eq
    unfold Heap.snapshotRegions Heap.settle at hregions ⊢
    rw [hbuilds.registry_eq]
    exact hregions
  · -- a store that is full before the family is has all the places that there can be
    have hcapacity : session.arena.capacity = Handle.indexBound :=
      hhoused.room.resolve_left (Nat.not_le_of_lt hcrowded)
    exact .inr ⟨hcapacity ▸ hcrowded, hcapacity ▸ hfull⟩

/-- **A collection keeps a session housed.** -/
theorem Housed.collect (hhoused : session.Housed family regions) (elapsed : UInt64) :
    ∃ report heap, session.heap.collect session.memory elapsed = .ok (report, heap) ∧
      Housed family regions { session with heap := heap } ∧ session.CollectedTo heap := by
  obtain ⟨report, heap, hcollect, hcollected⟩ := hhoused.sound.collect_alone elapsed
  refine ⟨report, heap, hcollect, ?_, hcollected⟩
  exact
    { sound := hcollected.sound
      populated := hhoused.populated.of_extends hcollected.extends_arena hcollected.sound.gapless
      room := (Heap.capacity_of_collect hcollect).symm ▸ hhoused.room
      regions_eq := hcollected.regions_eq.trans hhoused.regions_eq }

/-- What the slots of the regions denote is left. -/
theorem Housed.keeps (hhoused : session.Housed family regions) {heap : Heap}
    (hcollected : session.CollectedTo heap) :
    Keeps (slotsIn regions) session { session with heap := heap } :=
  hcollected.keeps fun _ hslot => hhoused.regions_eq.symm ▸ hslot

theorem Housed.maybeCollect (hhoused : session.Housed family regions) (elapsed : UInt64) :
    ∃ report? heap, session.heap.maybeCollect session.memory elapsed = .ok (report?, heap) ∧
      Housed family regions { session with heap := heap } ∧
      Keeps (slotsIn regions) session { session with heap := heap } := by
  by_cases hdue : session.heap.collectionDue = true
  · obtain ⟨report, heap, hcollect, hafter, hcollected⟩ := hhoused.collect elapsed
    refine ⟨some report, heap, ?_, hafter, hhoused.keeps hcollected⟩
    simp only [Heap.maybeCollect, hdue, if_true, hcollect, Except.map]
  · exact ⟨none, session.heap, by simp only [Heap.maybeCollect, if_neg hdue], hhoused,
      .refl _ _⟩

end Session

end ExprHeap
