import ExprHeap.Proofs.Producers
import ExprHeap.Proofs.Trees
import ExprHeap.Proofs.Collections
import Mathlib.Data.List.Forall2

/-!
# Requests with counterparts

Two runs of one producer have different handles for the same expressions.  When
they ask for the same thing, with operands that denote the same expressions, they
get the same answer but for the handle: the operation and the width of the node
are worked out from the widths of the operands, and these are part of what the
operands denote.  Only a full store can make a difference.
-/

namespace ExprHeap

/-! ### Working out the node -/

/-- Neither a handle that names nothing nor a full store is at fault. -/
def HeapError.IsOrdinary (error : HeapError) : Prop :=
  (∀ word, error ≠ .invalidHandle word) ∧ ∀ capacity, error ≠ .outOfMemory capacity

/-- Both lookups find the same width. -/
def SameWidth (firstWidth secondWidth : Handle → Except HeapError UInt32) (one other : Handle) :
    Prop :=
  ∃ width, firstWidth one = .ok width ∧ secondWidth other = .ok width

theorem Builder.construction?_agree {builder : Builder} {first second : List Handle}
    {firstWidth secondWidth : Handle → Except HeapError UInt32}
    (hwidths : List.Forall₂ (SameWidth firstWidth secondWidth) first second)
    {construction : Construction} (hfirst : builder.construction? first = some construction) :
    ∃ counterpart, builder.construction? second = some counterpart ∧
      ((∃ error, construction.toNode firstWidth = .error error ∧
          counterpart.toNode secondWidth = .error error ∧ error.IsOrdinary) ∨
        ∃ op width, construction.toNode firstWidth = .ok ⟨op, first, width⟩ ∧
          counterpart.toNode secondWidth = .ok ⟨op, second, width⟩) := by
  cases builder with
  | exactly op width =>
      obtain rfl := Option.some.inj hfirst
      exact ⟨_, rfl, .inr ⟨op, width, rfl, rfl⟩⟩
  | integer _ _ | bool _ | nullPointer | input _ =>
      cases hwidths with
      | nil =>
          obtain rfl := Option.some.inj hfirst
          exact ⟨_, rfl, .inr ⟨_, _, rfl, rfl⟩⟩
      | cons _ _ => cases hfirst
  | float bits double =>
      cases hwidths with
      | nil =>
          obtain rfl := Option.some.inj hfirst
          cases double with
          | true => exact ⟨_, rfl, .inr ⟨_, _, rfl, rfl⟩⟩
          | false => exact ⟨_, rfl, .inr ⟨_, _, rfl, rfl⟩⟩
      | cons _ _ => cases hfirst
  | cast op width =>
      rcases hwidths with _ | ⟨_, _ | _⟩
      · cases hfirst
      · obtain rfl := Option.some.inj hfirst
        exact ⟨_, rfl, .inr ⟨_, _, rfl, rfl⟩⟩
      · cases hfirst
  | compare predicate =>
      rcases hwidths with _ | ⟨_, _ | ⟨_, _ | _⟩⟩
      · cases hfirst
      · cases hfirst
      · obtain rfl := Option.some.inj hfirst
        exact ⟨_, rfl, .inr ⟨_, _, rfl, rfl⟩⟩
      · cases hfirst
  | memoryRead bytes =>
      rcases hwidths with _ | ⟨_, _ | _⟩
      · cases hfirst
      · obtain rfl := Option.some.inj hfirst
        refine ⟨_, rfl, ?_⟩
        simp only [Construction.toNode]
        split
        · exact .inr ⟨_, _, rfl, rfl⟩
        · exact .inl ⟨_, rfl, rfl, by simp, by simp⟩
      · cases hfirst
  -- the others look up the widths of their operands
  | unary op =>
      rcases hwidths with _ | ⟨⟨width, hone, hother⟩, _ | _⟩
      · cases hfirst
      · obtain rfl := Option.some.inj hfirst
        refine ⟨_, rfl, .inr ⟨.unary op, width, ?_, ?_⟩⟩
        · simp only [Construction.toNode, hone, bind, Except.bind, pure, Except.pure]
        · simp only [Construction.toNode, hother, bind, Except.bind, pure, Except.pure]
      · cases hfirst
  | binary op =>
      rcases hwidths with _ | ⟨⟨width, hone, hother⟩, _ | ⟨_, _ | _⟩⟩
      · cases hfirst
      · cases hfirst
      · obtain rfl := Option.some.inj hfirst
        refine ⟨_, rfl, .inr ⟨.binary op, width, ?_, ?_⟩⟩
        · simp only [Construction.toNode, hone, bind, Except.bind, pure, Except.pure]
        · simp only [Construction.toNode, hother, bind, Except.bind, pure, Except.pure]
      · cases hfirst
  | extract first last =>
      rcases hwidths with _ | ⟨⟨width, hone, hother⟩, _ | _⟩
      · cases hfirst
      · obtain rfl := Option.some.inj hfirst
        refine ⟨_, rfl, ?_⟩
        simp only [Construction.toNode, hone, hother, bind, Except.bind]
        split
        · exact .inl ⟨_, rfl, rfl, by simp, by simp⟩
        · exact .inr ⟨_, _, rfl, rfl⟩
      · cases hfirst
  | concat =>
      rcases hwidths with _ | ⟨⟨high, hhigh, hhigh'⟩, _ | ⟨⟨low, hlow, hlow'⟩, _ | _⟩⟩
      · cases hfirst
      · cases hfirst
      · obtain rfl := Option.some.inj hfirst
        refine ⟨_, rfl, ?_⟩
        simp only [Construction.toNode, hhigh, hhigh', hlow, hlow', bind, Except.bind]
        split
        · exact .inr ⟨_, _, rfl, rfl⟩
        · exact .inl ⟨_, rfl, rfl, by simp, by simp⟩
      · cases hfirst
  | ite =>
      rcases hwidths with _ | ⟨_, _ | ⟨⟨width, hone, hother⟩, _ | ⟨_, _ | _⟩⟩⟩
      · cases hfirst
      · cases hfirst
      · cases hfirst
      · obtain rfl := Option.some.inj hfirst
        refine ⟨_, rfl, .inr ⟨.ite, width, ?_, ?_⟩⟩
        · simp only [Construction.toNode, hone, bind, Except.bind, pure, Except.pure]
        · simp only [Construction.toNode, hother, bind, Except.bind, pure, Except.pure]
      · cases hfirst

/-- What takes no operands like these takes none like their counterparts. -/
theorem Builder.construction?_eq_none {builder : Builder} {first second : List Handle}
    {firstWidth secondWidth : Handle → Except HeapError UInt32}
    (hwidths : List.Forall₂ (SameWidth firstWidth secondWidth) first second)
    (hfirst : builder.construction? first = none) : builder.construction? second = none := by
  cases hsecond : builder.construction? second with
  | none => rfl
  | some construction =>
      have hflip : List.Forall₂ (SameWidth secondWidth firstWidth) second first := by
        refine hwidths.flip.imp ?_
        rintro other one ⟨width, hone, hother⟩
        exact ⟨width, hother, hone⟩
      obtain ⟨counterpart, hcounterpart, -⟩ := Builder.construction?_agree hflip hsecond
      cases hfirst.symm.trans hcounterpart

/-! ### Allocating the node -/

namespace Arena

variable {arena : Arena} {issued : Nat}

/-- A request whose children are allocated fails for its number of children or for want of room
only. -/
theorem allocate_error_cases {node : Node} {error : HeapError}
    (hchildren : ∀ child ∈ node.children, arena.contains child = true)
    (hallocate : arena.allocate node = .error error) :
    (node.children.length ≠ node.op.arity ∧
        error = .arityMismatch node.op node.op.arity node.children.length) ∨
      (node.children.length = node.op.arity ∧ error = .outOfMemory arena.capacity) := by
  have hfind : node.children.find? (!arena.contains ·) = none := by simpa using hchildren
  unfold allocate at hallocate
  -- all operands are there, so two of the three checks are left to fail
  split at hallocate
  · rename_i harity
    exact .inl ⟨harity, (Except.error.inj hallocate).symm⟩
  · rename_i harity
    rw [hfind] at hallocate
    refine .inr ⟨not_not.mp harity, ?_⟩
    dsimp only at hallocate
    split at hallocate
    · cases hallocate
    · split at hallocate
      · exact (Except.error.inj hallocate).symm
      · cases hallocate

/-- The answer to a request names the node that was asked for. -/
theorem Coherent.node?_of_allocate (hcoherent : arena.Coherent issued) {node : Node}
    {allocation : Allocation} {after : Arena}
    (hallocate : arena.allocate node = .ok (allocation, after)) :
    after.node? allocation.handle = some node := by
  obtain ⟨-, -, ⟨handle, rfl, hinterned, rfl⟩ | ⟨-, -, rfl, -⟩⟩ := allocate_cases hallocate
  · rw [node?_shade]
    exact (hcoherent.interned_iff node handle).mp hinterned
  · exact node?_eq_some_iff.mpr ⟨_, (hcoherent.allocate_fresh hallocate).2.1, rfl⟩

end Arena

/-! ### Building -/

namespace Heap

variable {heap : Heap} {construction : Construction} {node : Node}

theorem build_of_refused (hnode : construction.toNode heap.store.widthOf = .ok node)
    {error : HeapError} (hallocate : heap.store.arena.allocate node = .error error) :
    heap.build construction = .error error := by
  simp only [build, hnode, allocate, Store.allocate, hallocate]

theorem build_of_allocated (hnode : construction.toNode heap.store.widthOf = .ok node)
    {allocation : Allocation} {arena : Arena}
    (hallocate : heap.store.arena.allocate node = .ok (allocation, arena)) :
    ∃ after, heap.build construction = .ok (allocation.handle, after) ∧
      after.store.arena = arena := by
  simp only [build, hnode, allocate, Store.allocate, hallocate]
  cases allocation with
  | shared handle => exact ⟨_, rfl, rfl⟩
  | fresh handle => exact ⟨_, rfl, rfl⟩

/-- Two heaps answer a request and its counterpart alike. -/
inductive BuildsAlike (first second : Heap) (construction counterpart : Construction) : Prop
  | refused (error : HeapError) : error.IsOrdinary →
      first.build construction = .error error → second.build counterpart = .error error →
      BuildsAlike first second construction counterpart
  | built (one other : Handle) (first' second' : Heap) :
      first.build construction = .ok (one, first') →
      second.build counterpart = .ok (other, second') →
      Arena.Extends first.store.arena first'.store.arena →
      Arena.Extends second.store.arena second'.store.arena →
      Arena.SameExpr first'.store.arena second'.store.arena one other →
      BuildsAlike first second construction counterpart

variable {first second : Heap} {issued issued' : Nat}

theorem forall₂_sameWidth {ones others : List Handle}
    (hsame : List.Forall₂ (Arena.SameExpr first.store.arena second.store.arena) ones others) :
    List.Forall₂ (SameWidth first.store.widthOf second.store.widthOf) ones others := by
  refine hsame.imp ?_
  intro one other hexpr
  obtain ⟨node, node', hone, hother, hwidth⟩ := hexpr.exists_width
  refine ⟨node.width, ?_, ?_⟩
  · simp only [Store.widthOf, Store.node, hone, Except.map]
  · simp only [Store.widthOf, Store.node, hother, Except.map, hwidth]

/-- Unless a store is full, the same request for operands that denote the same expressions has the
same answer, but for the handle. -/
theorem buildsAlike (hfirst : first.store.arena.Coherent issued)
    (hsecond : second.store.arena.Coherent issued') {builder : Builder} {ones others : List Handle}
    (hsame : List.Forall₂ (Arena.SameExpr first.store.arena second.store.arena) ones others)
    {construction : Construction} (hbuilder : builder.construction? ones = some construction) :
    ∃ counterpart, builder.construction? others = some counterpart ∧
      ((∃ capacity, first.build construction = .error (.outOfMemory capacity)) ∨
        (∃ capacity, second.build counterpart = .error (.outOfMemory capacity)) ∨
        BuildsAlike first second construction counterpart) := by
  obtain ⟨counterpart, hcounterpart, hnodes⟩ :=
    Builder.construction?_agree (forall₂_sameWidth hsame) hbuilder
  refine ⟨counterpart, hcounterpart, ?_⟩
  rcases hnodes with ⟨error, hone, hother, hordinary⟩ | ⟨op, width, hone, hother⟩
  · refine .inr (.inr (.refused error hordinary ?_ ?_))
    · simp only [build, hone]
    · simp only [build, hother]
  have hones := Arena.contains_of_forall₂ hsame
  have hothers := Arena.contains_of_forall₂ (hsame.flip.imp fun _ _ => Arena.SameExpr.symm)
  have hlength := hsame.length_eq
  -- equal numbers of operands fail the first check alike; past it only the room can differ
  cases hallocate : first.store.arena.allocate ⟨op, ones, width⟩ with
  | error error =>
      rcases Arena.allocate_error_cases hones hallocate with ⟨harity, rfl⟩ | ⟨-, rfl⟩
      · -- the number of operands is wrong in both
        refine .inr (.inr (.refused _ ⟨by simp, by simp⟩ (build_of_refused hone hallocate) ?_))
        refine build_of_refused hother ?_
        rw [Arena.allocate, if_pos (hlength ▸ harity), hlength]
      · exact .inl ⟨_, build_of_refused hone hallocate⟩
  | ok found =>
      obtain ⟨allocation, arena⟩ := found
      obtain ⟨harity, -⟩ := Arena.allocate_cases hallocate
      cases hallocate' : second.store.arena.allocate ⟨op, others, width⟩ with
      | error error =>
          rcases Arena.allocate_error_cases hothers hallocate' with ⟨hmismatch, -⟩ | ⟨-, rfl⟩
          · exact absurd (hlength.symm.trans harity) hmismatch
          · exact .inr (.inl ⟨_, build_of_refused hother hallocate'⟩)
      | ok found =>
          obtain ⟨allocation', arena'⟩ := found
          obtain ⟨after, hbuild, rfl⟩ := build_of_allocated hone hallocate
          obtain ⟨after', hbuild', rfl⟩ := build_of_allocated hother hallocate'
          have hextends := hfirst.extends_request ⟨op, ones, width⟩
          rw [Arena.request_of_ok hallocate] at hextends
          have hextends' := hsecond.extends_request ⟨op, others, width⟩
          rw [Arena.request_of_ok hallocate'] at hextends'
          refine .inr (.inr (.built _ _ after after' hbuild hbuild' hextends hextends' ?_))
          exact Arena.sameExpr_node (hfirst.node?_of_allocate hallocate)
            (hsecond.node?_of_allocate hallocate')
            (hsame.imp fun _ _ => Arena.SameExpr.mono hextends hextends')

end Heap

end ExprHeap
