import ExprHeap.Proofs.Moments
import ExprHeap.Proofs.Trees

/-!
# The expression graph

The allocated nodes and their children form a graph.  It is *grounded* when no child is missing,
every operation has as many children as it takes, and no path along children goes on forever.
A grounded graph is what lets a handle stand for an expression: the node of every allocated
handle unfolds to a finite tree (`Grounded.exists_denotes`).

## Strategy

A slot index says nothing about age, since a vacated slot is taken again by a younger node, so
there is no order on handles along which the paths go down.  That paths end is kept as such
instead.  A request to the store leaves the graph as it is or adds one node
(`Coherent.apply_cases`).  The handle of the new node named nothing before, so it is no child of
an older node, and the paths from older nodes are those there were; from the new node a path
goes on to an older one at once.  What is taken away takes paths away with it.
-/

namespace ExprHeap

namespace Arena

variable {arena before after : Arena} {issued : Nat}

/-- A handle is among the children of an allocated node. -/
def ChildOf (arena : Arena) (child parent : Handle) : Prop :=
  ∃ node, arena.node? parent = some node ∧ child ∈ node.children

/-- Whole, well-formed and finitely deep. -/
structure Grounded (arena : Arena) : Prop where
  gapless : arena.ChildrenAllocated
  arity : ∀ handle node, arena.node? handle = some node → node.children.length = node.op.arity
  descends : WellFounded arena.ChildOf

theorem grounded_empty (capacity : Nat) : (Arena.empty capacity).Grounded := by
  have hnone : ∀ handle, (Arena.empty capacity).node? handle = none := by
    simp [Arena.empty, Arena.node?, Table.entryOf?]
  refine ⟨?_, ?_, ⟨fun parent => ⟨parent, ?_⟩⟩⟩
  · intro parent node hnode
    simp [hnone] at hnode
  · intro handle node hnode
    simp [hnone] at hnode
  · rintro child ⟨node, hnode, -⟩
    simp [hnone] at hnode

/-! ## What a request does to the graph -/

theorem arity_of_newborn {node : Node} {handle : Handle}
    (hnewborn : arena.newborn? node = some handle) : node.children.length = node.op.arity := by
  unfold newborn? at hnewborn
  split at hnewborn
  · rename_i hallocate
    exact (allocate_cases hallocate).1
  · cases hnewborn
  · cases hnewborn

/-- A request leaves the graph as it is, or adds a node under a handle that named nothing, with
as many children as its operation takes, all of them allocated before. -/
theorem Coherent.apply_cases (hcoherent : arena.Coherent issued) (request : NodeRequest) :
    (∀ handle, (arena.apply request).node? handle = arena.node? handle) ∨
      ∃ fresh node, arena.contains fresh = false ∧
        (∀ child ∈ node.children, arena.contains child = true) ∧
        node.children.length = node.op.arity ∧
        ∀ handle, (arena.apply request).node? handle =
          if handle = fresh then some node else arena.node? handle := by
  cases request with
  | shade root => exact .inl (node?_apply_shade arena root)
  | allocate node =>
      have hnode : ∀ handle, (arena.apply (.allocate node)).node? handle =
          if arena.newborn? node = some handle then some node else arena.node? handle :=
        hcoherent.node?_request node
      cases hnewborn : arena.newborn? node with
      | none =>
          refine .inl fun handle => ?_
          simpa [hnewborn] using hnode handle
      | some fresh =>
          obtain ⟨hnew, hchildren, -⟩ := hcoherent.newborn_spec hnewborn
          refine .inr ⟨fresh, node, hnew, hchildren, arity_of_newborn hnewborn, fun handle => ?_⟩
          simpa [hnewborn, eq_comm] using hnode handle

/-! ## The graph stays grounded -/

namespace Grounded

/-- With a new node above old ones. -/
theorem add (hgrounded : before.Grounded) {fresh : Handle} {node : Node}
    (hnew : before.contains fresh = false)
    (hchildren : ∀ child ∈ node.children, before.contains child = true)
    (harity : node.children.length = node.op.arity)
    (hnode : ∀ handle, after.node? handle =
      if handle = fresh then some node else before.node? handle) : after.Grounded := by
  have hsame : ∀ handle, handle ≠ fresh → after.node? handle = before.node? handle :=
    fun handle hne => (hnode handle).trans (if_neg hne)
  have hfresh : after.node? fresh = some node := (hnode fresh).trans (if_pos rfl)
  -- the new handle is no older one, so no older node is changed
  have hold : ∀ {handle}, before.contains handle = true → handle ≠ fresh := by
    rintro handle hcontains rfl
    rw [hnew] at hcontains
    cases hcontains
  have hkept : ∀ handle, before.contains handle = true → after.contains handle = true := by
    intro handle hcontains
    obtain ⟨old, hhandle⟩ := contains_iff.mp hcontains
    exact contains_of_node? ((hsame handle (hold hcontains)).trans hhandle)
  -- the paths from older nodes are those there were
  have hdescends : ∀ handle, handle ≠ fresh → Acc after.ChildOf handle := by
    intro handle
    induction handle using hgrounded.descends.induction with
    | _ handle ih =>
        intro hne
        refine ⟨handle, ?_⟩
        rintro child ⟨parent, hparent, hmem⟩
        rw [hsame handle hne] at hparent
        exact ih child ⟨parent, hparent, hmem⟩
          (hold (hgrounded.gapless handle parent hparent child hmem))
  refine ⟨?_, ?_, ⟨fun handle => ?_⟩⟩
  · intro parent parentNode hparent child hmem
    by_cases hcase : parent = fresh
    · subst hcase
      obtain rfl := Option.some.inj (hfresh.symm.trans hparent)
      exact hkept child (hchildren child hmem)
    · rw [hsame parent hcase] at hparent
      exact hkept child (hgrounded.gapless parent parentNode hparent child hmem)
  · intro handle handleNode hhandle
    by_cases hcase : handle = fresh
    · subst hcase
      obtain rfl := Option.some.inj (hfresh.symm.trans hhandle)
      exact harity
    · rw [hsame handle hcase] at hhandle
      exact hgrounded.arity handle handleNode hhandle
  · by_cases hcase : handle = fresh
    · subst hcase
      refine ⟨handle, ?_⟩
      rintro child ⟨parent, hparent, hmem⟩
      obtain rfl := Option.some.inj (hfresh.symm.trans hparent)
      exact hdescends child (hold (hchildren child hmem))
    · exact hdescends handle hcase

/-- With nodes taken away, but no child of a node that is left. -/
theorem restrict (hgrounded : before.Grounded) (hextends : Extends after before)
    (hgapless : after.ChildrenAllocated) : after.Grounded where
  gapless := hgapless
  arity handle node hnode := hgrounded.arity handle node (hextends handle node hnode)
  descends := by
    refine Subrelation.wf ?_ hgrounded.descends
    rintro child parent ⟨node, hnode, hmem⟩
    exact ⟨node, hextends parent node hnode, hmem⟩

/-- Being grounded is about the nodes alone. -/
theorem of_same (hgrounded : before.Grounded)
    (hsame : ∀ handle, after.node? handle = before.node? handle) : after.Grounded := by
  refine hgrounded.restrict (fun handle node hnode => hsame handle ▸ hnode) ?_
  intro parent node hparent child hmem
  rw [hsame] at hparent
  have hchild := hgrounded.gapless parent node hparent child hmem
  rwa [contains_iff, hsame, ← contains_iff]

theorem apply (hgrounded : arena.Grounded) (hcoherent : arena.Coherent issued)
    (request : NodeRequest) : (arena.apply request).Grounded := by
  rcases hcoherent.apply_cases request with hsame | ⟨fresh, node, hnew, hchildren, harity, hnode⟩
  · exact hgrounded.of_same hsame
  · exact hgrounded.add hnew hchildren harity hnode

theorem applyAll (hgrounded : arena.Grounded) (hcoherent : arena.Coherent issued)
    (requests : List NodeRequest) : (arena.applyAll requests).Grounded := by
  induction requests generalizing arena issued with
  | nil => exact hgrounded
  | cons request rest ih =>
      obtain ⟨_, happly⟩ := hcoherent.apply request
      exact ih (hgrounded.apply hcoherent request) happly

/-! ## The expressions in the graph -/

/-- **Every allocated handle stands for an expression.** -/
theorem exists_denotes (hgrounded : arena.Grounded) (handle : Handle) :
    arena.contains handle = true → ∃ tree, arena.Denotes tree handle := by
  induction handle using hgrounded.descends.induction with
  | _ handle ih =>
      intro hcontains
      obtain ⟨node, hnode⟩ := contains_iff.mp hcontains
      obtain ⟨trees, htrees⟩ : ∃ trees, arena.DenotesAll trees node.children := by
        refine exists_denotesAll fun child hmem => ?_
        exact ih child ⟨node, hnode, hmem⟩ (hgrounded.gapless handle node hnode child hmem)
      exact ⟨.node node.op node.width trees, denotes_node hnode htrees⟩

end Grounded

end Arena

/-! ## The graph over a whole run -/

namespace Moment

variable {config : Config} {before after moment : Moment}

/-- Every step from a sound moment keeps the graph grounded. -/
theorem Sound.grounded_step (hsound : before.Sound) (hgrounded : before.arena.Grounded)
    (hstep : Step before after) : after.arena.Grounded := by
  obtain ⟨⟨_, hcoherent⟩, -⟩ := hsound.gapless
  rcases hsound.arena_step hstep with ⟨requests, hsame⟩ | ⟨-, hextends⟩
  · exact (hgrounded.applyAll hcoherent requests).of_same hsame
  · exact hgrounded.restrict hextends (hsound.step hstep).gapless.2

theorem Reached.grounded (hreached : moment.Reached config) : moment.arena.Grounded := by
  obtain ⟨memory, hsteps⟩ := hreached
  induction hsteps with
  | refl => exact Arena.grounded_empty _
  | tail hsteps hstep ih => exact Sound.grounded_step (Reached.sound ⟨memory, hsteps⟩) ih hstep

/-- **The integrity of the expression graph**, at every moment of every run, within collections
as between them.  The graph is grounded: every child of an allocated node is allocated, every
allocated node has as many children as its operation takes, and no path along children goes on
forever, so that every allocated handle unfolds to a finite tree.  And a handle has the same
node, operation, children and width, for as long as it stays allocated. -/
theorem expression_graph_integrity (hreached : moment.Reached config) :
    moment.arena.Grounded ∧
      (∀ handle, moment.arena.contains handle = true →
        ∃ tree, moment.arena.Denotes tree handle) ∧
      ∀ handle node later, moment.arena.node? handle = some node →
        moment.Retains handle later → later.arena.node? handle = some node :=
  ⟨hreached.grounded, hreached.grounded.exists_denotes,
    fun _ _ _ hnode hretains => hretains.node? hreached.sound hnode⟩

/-- The negation in a region keeps its node through a collection. -/
theorem negation_outlives_collection :
    Moment.Reached .default ⟨.rootedNegation, .between⟩ ∧
      Session.rootedNegation.arena.Grounded ∧
      ∃ report final, Session.rootedNegation.collect [] [] 0 = .ok (report, final) ∧
        Moment.Retains ⟨1, 1⟩ ⟨.rootedNegation, .between⟩ ⟨final, .between⟩ ∧
        final.arena.node? ⟨1, 1⟩ = some ⟨.unary .neg, [⟨0, 1⟩], 8⟩ := by
  have hreached := Session.reached_rootedNegation.moment
  obtain ⟨hgrounded, -, hkeeps⟩ := expression_graph_integrity hreached
  obtain ⟨report, final, hcollect, hretains⟩ := Session.retains_negation
  exact ⟨hreached, hgrounded, report, final, hcollect, hretains,
    hkeeps _ _ _ Session.node?_negation hretains⟩

end Moment

end ExprHeap
