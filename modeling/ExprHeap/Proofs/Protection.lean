import ExprHeap.Proofs.Scan
import ExprHeap.Proofs.Sweep
import ExprHeap.Proofs.StoreRuns

/-!
# What an interleaved sweep leaves alone

While a cycle sweeps, a node is *protected* if the scan found it, if it was born
in the cycle, or if it has been shaded in it.  Requests are *disciplined* if at
the moment of each the handles that it names are protected.

## Strategy

The protected nodes are closed under children once the scan is done, and every
step of a disciplined run keeps them closed (`ProtectedClosed.apply`): a
request adds a new node, whose children it names itself, or a node that is
shared, whose children it names too, so that however many of the nodes below a
shared node had been given up, none of them is gone.  No step ever ends the
protection of a node.  A slot that the sweep goes over holds a protected node
afterwards or none (`InCycle.protected_of_contains_reclaim`), which in the end
leaves exactly the protected nodes.
-/

namespace ExprHeap

/-- The handles that a request names. -/
def NodeRequest.arguments : NodeRequest → List Handle
  | .allocate node => node.children
  | .shade handle => [handle]

/-- The handles that a step names. -/
def SweepStep.arguments : SweepStep → List Handle
  | .request asked => asked.arguments
  | .reclaim _ => []

namespace Arena

variable {arena : Arena} {issued epoch : Nat} {isLive : Handle → Bool}

/-- An allocated node that is live, or that was born or shaded in the current epoch. -/
def Protected (arena : Arena) (isLive : Handle → Bool) (handle : Handle) : Prop :=
  arena.contains handle = true ∧ (isLive handle = true ∨ arena.Kept handle)

/-- Every child of a protected node is allocated and protected. -/
def ProtectedClosed (arena : Arena) (isLive : Handle → Bool) : Prop :=
  ∀ parent node child, arena.Protected isLive parent → arena.node? parent = some node →
    child ∈ node.children → arena.Protected isLive child

theorem Kept.protected {handle : Handle} (hkept : arena.Kept handle) :
    arena.Protected isLive handle :=
  ⟨hkept.contains, .inr hkept⟩

/-- Everything below a protected node is protected. -/
theorem ProtectedClosed.below (hclosed : arena.ProtectedClosed isLive) {root handle : Handle}
    (hroot : arena.Protected isLive root) (hbelow : arena.Below root handle) :
    arena.Protected isLive handle := by
  induction hbelow with
  | here => exact hroot
  | child _ hnode hmem ih => exact hclosed _ _ _ ih hnode hmem

/-- Once the scan is done, the protected nodes are closed under children. -/
theorem InCycle.protectedClosed_of_exact (hcycle : arena.InCycle epoch)
    (hgapless : arena.ChildrenAllocated) {words : List UInt64} {live : LiveSet}
    (hexact : live.Exact arena words) : arena.ProtectedClosed live.contains := by
  intro parent node child hparent hnode hmem
  obtain ⟨_, hcoherent⟩ := hcycle.coherent
  have hchild := hgapless parent node hnode child hmem
  refine ⟨hchild, ?_⟩
  rcases hparent.2 with hlive | hkept
  · refine .inl ?_
    rw [hexact.contains_iff _ (Marking.generation_ne_zero_of_contains hcoherent hparent.1)] at hlive
    rw [hexact.contains_iff _ (Marking.generation_ne_zero_of_contains hcoherent hchild)]
    obtain ⟨word, hword, root, hroot, hbelow⟩ := hlive
    exact ⟨word, hword, root, hroot, .child hbelow hnode hmem⟩
  · exact .inr (hcycle.closed parent child node hkept hnode hmem hchild)

/-! ### Requests -/

theorem InCycle.protected_apply (hcycle : arena.InCycle epoch) (request : NodeRequest)
    {handle : Handle} (hprotected : arena.Protected isLive handle) :
    (arena.apply request).Protected isLive handle := by
  obtain ⟨_, hcoherent⟩ := hcycle.coherent
  refine ⟨(hcoherent.extends_apply request).contains hprotected.1, ?_⟩
  rcases hprotected.2 with hlive | hkept
  · exact .inl hlive
  · exact .inr (hcoherent.kept_of_apply hcycle.closed hcycle.active request hkept)

/-- Shading protects nothing new: what it keeps lies below its argument. -/
theorem InCycle.protected_of_shade (hcycle : arena.InCycle epoch)
    (hclosed : arena.ProtectedClosed isLive) {root handle : Handle}
    (hroot : arena.Protected isLive root)
    (hprotected : (arena.apply (.shade root)).Protected isLive handle) :
    arena.Protected isLive handle := by
  obtain ⟨_, hcoherent⟩ := hcycle.coherent
  have hcontains : arena.contains handle = true := by
    simpa [bornBy, hcoherent.contains_apply_iff] using hprotected.1
  rcases hprotected.2 with hlive | hkept
  · exact ⟨hcontains, .inl hlive⟩
  -- what is kept now was kept before or lies below the shaded root, which is protected itself
  rcases (hcoherent.kept_apply_iff hcycle.closed hcycle.active _).mp hkept with
    hkept | hborn | ⟨⟨other, hother, hbelow⟩, -⟩
  · exact hkept.protected
  · cases hborn
  · rw [rootsOf_shade] at hother
    split at hother
    · obtain rfl := List.mem_singleton.mp hother
      exact hclosed.below hroot hbelow
    · cases hother

/-- What a request for a node newly protects has the children that the request names. -/
theorem InCycle.children_of_allocate (hcycle : arena.InCycle epoch)
    (hclosed : arena.ProtectedClosed isLive) {asked : Node}
    (harguments : ∀ child ∈ asked.children, arena.Protected isLive child)
    {parent : Handle} {node : Node}
    (hparent : (arena.apply (.allocate asked)).Protected isLive parent)
    (hnew : ¬ arena.Protected isLive parent)
    (hnode : (arena.apply (.allocate asked)).node? parent = some node) :
    ∀ child ∈ node.children, arena.Protected isLive child := by
  obtain ⟨_, hcoherent⟩ := hcycle.coherent
  change (arena.request asked).node? parent = some node at hnode
  rw [hcoherent.node?_request] at hnode
  split at hnode
  · -- the new node itself
    obtain rfl := Option.some.inj hnode
    exact harguments
  rename_i hold
  have hcontains := contains_of_node? hnode
  rcases hparent.2 with hlive | hkept
  · exact absurd ⟨hcontains, .inl hlive⟩ hnew
  rcases (hcoherent.kept_apply_iff hcycle.closed hcycle.active _).mp hkept with
    hkept | hborn | ⟨⟨root, hroot, hbelow⟩, -⟩
  · exact absurd hkept.protected hnew
  · exact absurd hborn hold
  rw [rootsOf] at hroot
  rcases hcoherent.request_cases asked with
    ⟨-, -, hshaded⟩ | ⟨shared, hshared, -, -, hshaded⟩ | ⟨_, -, -, -, hshaded, -⟩
  · rw [hshaded] at hroot
    cases hroot
  · -- a node that is shared: what lies strictly below it lies below an argument
    rw [hshaded, List.mem_singleton] at hroot
    subst hroot
    rcases hbelow.cases_head with rfl | ⟨sharedNode, hsharedNode, first, hfirst, hrest⟩
    · obtain rfl := Option.some.inj (hshared.symm.trans hnode)
      exact harguments
    · obtain rfl := Option.some.inj (hshared.symm.trans hsharedNode)
      exact absurd (hclosed.below (harguments first hfirst) hrest) hnew
  · -- the children of a new node are the arguments
    rw [hshaded] at hroot
    exact absurd (hclosed.below (harguments root hroot) hbelow) hnew

theorem ProtectedClosed.apply (hclosed : arena.ProtectedClosed isLive)
    (hcycle : arena.InCycle epoch) {request : NodeRequest}
    (harguments : ∀ handle ∈ request.arguments, arena.Protected isLive handle) :
    (arena.apply request).ProtectedClosed isLive := by
  intro parent node child hparent hnode hmem
  obtain ⟨_, hcoherent⟩ := hcycle.coherent
  -- a parent that was protected keeps its children; another one owes its protection to the request
  by_cases hold : arena.Protected isLive parent
  · obtain ⟨oldNode, holdNode⟩ := contains_iff.mp hold.1
    have hsame := hcoherent.extends_apply request parent oldNode holdNode
    obtain rfl := Option.some.inj (hsame.symm.trans hnode)
    exact hcycle.protected_apply request (hclosed parent _ child hold holdNode hmem)
  · refine hcycle.protected_apply request ?_
    cases request with
    | allocate asked =>
        exact hcycle.children_of_allocate hclosed harguments hparent hold hnode child hmem
    | shade root =>
        have hroot := harguments root (List.mem_singleton_self root)
        exact absurd (hcycle.protected_of_shade hclosed hroot hparent) hold

/-! ### The sweep -/

theorem Protected.not_reclaimable {handle : Handle}
    (hprotected : arena.Protected isLive handle) :
    ¬ arena.Reclaimable arena.epoch isLive handle := by
  intro hreclaimable
  rcases hprotected.2 with hlive | hkept
  · obtain ⟨_, -, -, -, hdead⟩ := hreclaimable
    rw [hlive] at hdead
    cases hdead
  · exact hkept.not_reclaimable hreclaimable

theorem InCycle.node?_reclaim_of_protected (hcycle : arena.InCycle epoch) (index : Nat)
    {handle : Handle} (hprotected : arena.Protected isLive handle) :
    (arena.reclaim epoch isLive index).2.node? handle = arena.node? handle := by
  obtain ⟨_, hcoherent⟩ := hcycle.coherent
  obtain rfl := hcycle.epoch_eq
  rw [hcoherent.node?_reclaim, if_neg fun h => hprotected.not_reclaimable h.2]

theorem InCycle.protected_reclaim_iff (hcycle : arena.InCycle epoch) (index : Nat)
    {handle : Handle} :
    (arena.reclaim epoch isLive index).2.Protected isLive handle ↔
      arena.Protected isLive handle := by
  obtain ⟨_, hcoherent⟩ := hcycle.coherent
  constructor
  · rintro ⟨hcontains, hreason⟩
    obtain ⟨node, hnode⟩ := contains_iff.mp hcontains
    refine ⟨contains_of_node? (hcoherent.node?_of_reclaim hnode), hreason.imp_right ?_⟩
    obtain rfl := hcycle.epoch_eq
    exact hcoherent.kept_reclaim_iff.mp
  · intro hprotected
    refine ⟨?_, hprotected.2.imp_right ?_⟩
    · rw [contains_iff, hcycle.node?_reclaim_of_protected index hprotected]
      exact contains_iff.mp hprotected.1
    · obtain rfl := hcycle.epoch_eq
      exact hcoherent.kept_reclaim_iff.mpr

theorem ProtectedClosed.reclaim (hclosed : arena.ProtectedClosed isLive)
    (hcycle : arena.InCycle epoch) (index : Nat) :
    (arena.reclaim epoch isLive index).2.ProtectedClosed isLive := by
  intro parent node child hparent hnode hmem
  rw [hcycle.protected_reclaim_iff] at hparent ⊢
  rw [hcycle.node?_reclaim_of_protected index hparent] at hnode
  exact hclosed parent node child hparent hnode hmem

/-- When the sweep has gone over its slot, an allocated handle is protected. -/
theorem InCycle.protected_of_contains_reclaim (hcycle : arena.InCycle epoch) {handle : Handle}
    (hcontains : (arena.reclaim epoch isLive handle.index.toNat).2.contains handle = true) :
    arena.Protected isLive handle := by
  obtain ⟨_, hcoherent⟩ := hcycle.coherent
  obtain rfl := hcycle.epoch_eq
  obtain ⟨node, hnode⟩ := contains_iff.mp hcontains
  have hbefore := contains_of_node? (hcoherent.node?_of_reclaim hnode)
  refine ⟨hbefore, ?_⟩
  -- otherwise the sweep would have taken the node away
  by_contra hneither
  rw [not_or] at hneither
  have hreclaimable : arena.Reclaimable arena.epoch isLive handle :=
    hcoherent.reclaimable_iff.mpr ⟨hbefore, hneither.2, by simpa using hneither.1⟩
  rw [hcoherent.node?_reclaim, if_pos ⟨rfl, hreclaimable⟩] at hnode
  cases hnode

end Arena

end ExprHeap
