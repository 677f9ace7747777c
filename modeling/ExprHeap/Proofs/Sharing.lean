import ExprHeap.Proofs.Counterparts
import ExprHeap.Proofs.ExpressionGraph

/-!
# Sharing of whole expressions

The map of nodes compares operations, widths and the handles of children.  Yet two handles never
stand for the same expression: in a coherent arena equal trees have equal handles, from the leaves
up (`Denotes.unique`).

So whoever builds an expression again from its leaves, while its node is allocated, is answered
with the handles that are there, for the expression and for every part of it, and no node is added.
`Heap.rebuild` does that: it asks for each node by any construction that comes to that node, and
notes the answers on its way.

## Strategy

The handle may come from an earlier moment, and what lies below it has stayed what it was
(`Retains.below`).  All that rebuilding needs of a heap is told by `Heap.Recalls`: it still has the
nodes below a handle of an earlier arena, and each is what is asked for.  The answers along the way
shade nodes and change nothing else, and shading keeps that.
-/

namespace ExprHeap

/-! ### Equal trees, equal handles -/

namespace Arena

variable {arena : Arena} {issued : Nat}

mutual

/-- **The same expression never stands under two handles.** -/
theorem Denotes.unique (hcoherent : arena.Coherent issued) :
    ∀ {tree : Tree} {first second : Handle}, arena.Denotes tree first →
      arena.Denotes tree second → first = second
  | .node op width children, first, second, hfirst, hsecond => by
      obtain ⟨operands, hnode, hchildren⟩ := hfirst.node?
      obtain ⟨operands', hnode', hchildren'⟩ := hsecond.node?
      obtain rfl := DenotesAll.unique hcoherent hchildren hchildren'
      exact hcoherent.node?_injective hnode hnode'

theorem DenotesAll.unique (hcoherent : arena.Coherent issued) :
    ∀ {trees : List Tree} {first second : List Handle}, arena.DenotesAll trees first →
      arena.DenotesAll trees second → first = second
  | [], [], [], _, _ => rfl
  | tree :: trees, one :: first, other :: second, hfirst, hsecond => by
      rw [denotesAll_cons] at hfirst hsecond
      rw [Denotes.unique hcoherent hfirst.1 hsecond.1,
        DenotesAll.unique hcoherent hfirst.2 hsecond.2]
  | [], _ :: _, _, hfirst, _ => by simp at hfirst
  | [], [], _ :: _, _, hsecond => by simp at hsecond
  | _ :: _, [], _, hfirst, _ => by simp at hfirst
  | _ :: _, _ :: _, [], _, hsecond => by simp at hsecond

end

end Arena

/-! ### Building an expression again -/

mutual

/-- An expression and its parts, each after its own parts. -/
def Tree.postorder : Tree → List Tree
  | .node op width children => Tree.postorderAll children ++ [.node op width children]

/-- The parts of several expressions. -/
def Tree.postorderAll : List Tree → List Tree
  | [] => []
  | tree :: trees => tree.postorder ++ Tree.postorderAll trees

end

namespace Heap

mutual

/-- Builds an expression from its leaves, where `ask` says how to ask for each node.  Answers with
the handle of the expression and with all handles that were answered on the way, its own last. -/
def rebuild (ask : Node → Construction) :
    Tree → Heap → Except HeapError (Handle × List Handle × Heap)
  | .node op width children, heap =>
    match rebuildAll ask children heap with
    | .error error => .error error
    | .ok (operands, trail, heap) =>
      match heap.build (ask ⟨op, operands, width⟩) with
      | .error error => .error error
      | .ok (handle, heap) => .ok (handle, trail ++ [handle], heap)

/-- Builds several expressions one after the other. -/
def rebuildAll (ask : Node → Construction) :
    List Tree → Heap → Except HeapError (List Handle × List Handle × Heap)
  | [], heap => .ok ([], [], heap)
  | tree :: trees, heap =>
    match rebuild ask tree heap with
    | .error error => .error error
    | .ok (handle, trail, heap) =>
      match rebuildAll ask trees heap with
      | .error error => .error error
      | .ok (handles, rest, heap) => .ok (handle :: handles, trail ++ rest, heap)

end

/-- The nodes that lay below a handle in an arena are in the heap, and each of them is what `ask`
asks for. -/
structure Recalls (heap : Heap) (arena : Arena) (ask : Node → Construction) (root : Handle) :
    Prop where
  kept : ∀ handle node, arena.Below root handle → arena.node? handle = some node →
    heap.store.arena.node? handle = some node
  asked : ∀ handle node, arena.Below root handle → arena.node? handle = some node →
    (ask node).toNode heap.store.widthOf = .ok node

variable {heap after : Heap} {arena : Arena} {ask : Node → Construction} {root : Handle}

theorem Recalls.child (hrecalls : heap.Recalls arena ask root) {node : Node} {child : Handle}
    (hnode : arena.node? root = some node) (hmem : child ∈ node.children) :
    heap.Recalls arena ask child where
  kept handle other hbelow := hrecalls.kept handle other (.of_child hnode hmem hbelow)
  asked handle other hbelow := hrecalls.asked handle other (.of_child hnode hmem hbelow)

/-- Nodes have been shaded and nothing else has changed about the store. -/
def ShadedInto (before after : Heap) : Prop :=
  ∃ roots : List Handle, after.store.arena = roots.foldl Arena.shade before.store.arena

namespace ShadedInto

theorem trans {first second third : Heap} (hfirst : ShadedInto first second)
    (hsecond : ShadedInto second third) : ShadedInto first third := by
  obtain ⟨roots, hroots⟩ := hfirst
  obtain ⟨others, hothers⟩ := hsecond
  refine ⟨roots ++ others, ?_⟩
  rw [hothers, hroots, List.foldl_append]

theorem node? (hshaded : ShadedInto heap after) (handle : Handle) :
    after.store.arena.node? handle = heap.store.arena.node? handle := by
  obtain ⟨roots, hroots⟩ := hshaded
  rw [hroots]
  exact Arena.foldl_shade_eq (Arena.node? · handle) (Arena.node?_shade · · handle) roots _

theorem size (hshaded : ShadedInto heap after) :
    after.store.arena.size = heap.store.arena.size := by
  obtain ⟨roots, hroots⟩ := hshaded
  rw [hroots, Arena.foldl_shade_eq Arena.size Arena.shade_size]

theorem coherent {issued : Nat} (hshaded : ShadedInto heap after)
    (hcoherent : heap.store.arena.Coherent issued) : after.store.arena.Coherent issued := by
  obtain ⟨roots, hroots⟩ := hshaded
  rw [hroots]
  exact hcoherent.foldl_shade roots

theorem widthOf (hshaded : ShadedInto heap after) : after.store.widthOf = heap.store.widthOf := by
  funext handle
  simp only [Store.widthOf, Store.node, hshaded.node?]

theorem recalls (hshaded : ShadedInto heap after) (hrecalls : heap.Recalls arena ask root) :
    after.Recalls arena ask root where
  kept handle node hbelow hnode :=
    (hshaded.node? handle).trans (hrecalls.kept handle node hbelow hnode)
  asked handle node hbelow hnode := by
    rw [hshaded.widthOf]
    exact hrecalls.asked handle node hbelow hnode

end ShadedInto

/-- To ask for a node that is there is to be answered with its handle. -/
theorem build_of_node? {issued : Nat} (hcoherent : heap.store.arena.Coherent issued)
    {construction : Construction} {node : Node} {handle : Handle}
    (hask : construction.toNode heap.store.widthOf = .ok node)
    (harity : node.children.length = node.op.arity)
    (hchildren : ∀ child ∈ node.children, heap.store.arena.contains child = true)
    (hnode : heap.store.arena.node? handle = some node) :
    ∃ after, heap.build construction = .ok (handle, after) ∧ ShadedInto heap after := by
  have hinterned := (hcoherent.interned_iff node handle).mpr hnode
  obtain ⟨after, hbuild, harena⟩ :=
    build_of_allocated hask (Arena.allocate_shared harity hchildren hinterned)
  exact ⟨after, hbuild, [handle], harena⟩

mutual

/-- **An expression that is there is built again without a new node**: the answer is its handle,
and the answers on the way are the handles of its parts. -/
theorem Recalls.rebuild {issued : Nat} (hgrounded : arena.Grounded) :
    ∀ {tree : Tree} {root : Handle} {heap : Heap}, heap.store.arena.Coherent issued →
      heap.Recalls arena ask root → arena.Denotes tree root →
      ∃ trail after, heap.rebuild ask tree = .ok (root, trail, after) ∧
        arena.DenotesAll tree.postorder trail ∧ ShadedInto heap after
  | .node op width children, root, heap, hcoherent, hrecalls, hdenotes => by
      obtain ⟨operands, hnode, hchildren⟩ := hdenotes.node?
      -- the operands come first, and leave all nodes as they are
      obtain ⟨trail, built, hoperands, htrail, hshaded⟩ :=
        Recalls.rebuildAll hgrounded hcoherent (fun _ => hrecalls.child hnode) hchildren
      have hbuilt := hshaded.recalls hrecalls
      have hallocated : ∀ child ∈ operands, built.store.arena.contains child = true := by
        intro child hmem
        have hchild := hgrounded.gapless root _ hnode child hmem
        obtain ⟨node, hchildNode⟩ := Arena.contains_iff.mp hchild
        exact Arena.contains_of_node? ((hbuilt.child hnode hmem).kept child node .here hchildNode)
      obtain ⟨after, hbuild, hafter⟩ := build_of_node? (hshaded.coherent hcoherent)
        (hbuilt.asked root _ .here hnode) (hgrounded.arity root _ hnode) hallocated
        (hbuilt.kept root _ .here hnode)
      refine ⟨trail ++ [root], after, ?_, ?_, hshaded.trans hafter⟩
      · simp only [Heap.rebuild, hoperands, hbuild]
      · rw [Tree.postorder]
        exact htrail.append (by simpa using hdenotes)

theorem Recalls.rebuildAll {issued : Nat} (hgrounded : arena.Grounded) :
    ∀ {trees : List Tree} {roots : List Handle} {heap : Heap},
      heap.store.arena.Coherent issued → (∀ root ∈ roots, heap.Recalls arena ask root) →
      arena.DenotesAll trees roots →
      ∃ trail after, heap.rebuildAll ask trees = .ok (roots, trail, after) ∧
        arena.DenotesAll (Tree.postorderAll trees) trail ∧ ShadedInto heap after
  | [], [], heap, _, _, hall => by
      refine ⟨[], heap, by rw [Heap.rebuildAll], ?_, [], rfl⟩
      rwa [Tree.postorderAll]
  | tree :: trees, root :: roots, heap, hcoherent, hrecalls, hall => by
      rw [Arena.denotesAll_cons] at hall
      obtain ⟨hfirst, hrest⟩ := List.forall_mem_cons.mp hrecalls
      obtain ⟨trail, built, hrebuild, htrail, hshaded⟩ :=
        Recalls.rebuild hgrounded hcoherent hfirst hall.1
      obtain ⟨others, after, hrebuildAll, hothers, hafter⟩ :=
        Recalls.rebuildAll hgrounded (hshaded.coherent hcoherent)
          (fun other hmem => hshaded.recalls (hrest other hmem)) hall.2
      refine ⟨trail ++ others, after, ?_, ?_, hshaded.trans hafter⟩
      · simp only [Heap.rebuildAll, hrebuild, hrebuildAll]
      · rw [Tree.postorderAll]
        exact htrail.append hothers
  | [], _ :: _, _, _, _, hall => by simp at hall
  | _ :: _, [], _, _, _, hall => by simp at hall

end

end Heap

/-! ### Sharing over a whole run -/

namespace Moment

variable {config : Config} {moment : Moment}

/-- **Whole expressions are shared**, at every moment of every run.  An allocated handle stands for
one expression, and no expression stands under two handles.  So at any later moment, as long as a
handle has stayed allocated through whatever was done and collected in between, its expression is
built again without a new node: the answer is that handle, the answers on the way are the handles
that its parts had, and no handle names anything else afterwards. -/
theorem whole_expressions_shared (hreached : moment.Reached config) :
    (∀ handle, moment.arena.contains handle = true → ∃! tree, moment.arena.Denotes tree handle) ∧
      (∀ tree first second, moment.arena.Denotes tree first → moment.arena.Denotes tree second →
        first = second) ∧
      ∀ tree handle later ask, moment.arena.Denotes tree handle → moment.Retains handle later →
        (∀ other node, moment.arena.Below handle other → moment.arena.node? other = some node →
          (ask node).toNode later.session.heap.store.widthOf = .ok node) →
        ∃ trail after, later.session.heap.rebuild ask tree = .ok (handle, trail, after) ∧
          moment.arena.DenotesAll tree.postorder trail ∧
          after.store.arena.size = later.arena.size ∧
          ∀ other, after.store.arena.node? other = later.arena.node? other := by
  have hsound := hreached.sound
  have hgrounded := hreached.grounded
  obtain ⟨⟨_, hcoherent⟩, -⟩ := hsound.gapless
  refine ⟨fun handle hcontains => ?_, fun _ _ _ => Arena.Denotes.unique hcoherent, ?_⟩
  · obtain ⟨tree, htree⟩ := hgrounded.exists_denotes handle hcontains
    exact ⟨tree, htree, fun _ hother => hother.tree_unique htree⟩
  · intro tree handle later ask hdenotes hretains hask
    obtain ⟨⟨_, hlater⟩, -⟩ := (hretains.sound hsound).gapless
    -- what lies below the handle is retained with it, so later questions are about the same nodes
    have hrecalls : later.session.heap.Recalls moment.arena ask handle :=
      ⟨fun _ _ hbelow hnode => (hretains.below hsound hbelow hnode).2, hask⟩
    obtain ⟨trail, after, hrebuild, htrail, hshaded⟩ :=
      hrecalls.rebuild hgrounded hlater hdenotes
    exact ⟨trail, after, hrebuild, htrail, hshaded.size, hshaded.node?⟩

/-- The negation in a region is built again after a collection, from its byte. -/
theorem negation_built_again :
    Moment.Reached .default ⟨.rootedNegation, .between⟩ ∧
      ∃ report final, Session.rootedNegation.collect [] [] 0 = .ok (report, final) ∧
        Moment.Retains ⟨1, 1⟩ ⟨.rootedNegation, .between⟩ ⟨final, .between⟩ ∧
        ∃ after, final.heap.rebuild .exactly (.node (.unary .neg) 8 [.node (.input 0) 8 []]) =
            .ok (⟨1, 1⟩, [⟨0, 1⟩, ⟨1, 1⟩], after) ∧
          after.store.arena.size = final.arena.size := by
  have hreached := Session.reached_rootedNegation.moment
  obtain ⟨-, -, hrebuilds⟩ := whole_expressions_shared hreached
  obtain ⟨report, final, hcollect, hretains⟩ := Session.retains_negation
  refine ⟨hreached, report, final, hcollect, hretains, ?_⟩
  have hinput : Session.rootedNegation.arena.node? ⟨0, 1⟩ = some ⟨.input 0, [], 8⟩ := by cbv
  have hbyte : Session.rootedNegation.arena.Denotes (.node (.input 0) 8 []) ⟨0, 1⟩ :=
    Arena.denotes_node hinput Arena.denotesAll_nil
  have hnegation : Session.rootedNegation.arena.Denotes
      (.node (.unary .neg) 8 [.node (.input 0) 8 []]) ⟨1, 1⟩ :=
    Arena.denotes_node Session.node?_negation (by simpa using hbyte)
  obtain ⟨trail, after, hrebuild, htrail, hsize, -⟩ :=
    hrebuilds _ _ _ .exactly hnegation hretains fun _ _ _ _ => rfl
  obtain ⟨⟨_, hcoherent⟩, -⟩ := hreached.sound.gapless
  have hparts : Session.rootedNegation.arena.DenotesAll
      (Tree.postorder (.node (.unary .neg) 8 [.node (.input 0) 8 []])) [⟨0, 1⟩, ⟨1, 1⟩] := by
    simp [Tree.postorder, Tree.postorderAll, hbyte, hnegation]
  obtain rfl := Arena.DenotesAll.unique hcoherent htrail hparts
  exact ⟨after, hrebuild, hsize⟩

end Moment

end ExprHeap
