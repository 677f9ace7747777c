import ExprHeap.Proofs.Barrier

/-!
# Runs of requests

Between the steps of a cycle whoever shares the store may allocate and shade.  A
`NodeRequest` is one such call and `Arena.apply` what it does; a call that is
turned down does nothing.

Along a run of requests the arena only grows, and with a closed barrier what is
kept at the end is told by three lists: what was kept before, the nodes born
during the run, and everything below the nodes that the requests shade
(`kept_applyAll_iff`).
-/

namespace ExprHeap

/-- A call that may bring about a node or keep one. -/
inductive NodeRequest where
  | allocate (node : Node)
  | shade (handle : Handle)

namespace Arena

variable {arena : Arena} {issued : Nat}

/-! ### One request -/

/-- The arena after a request; to shade what is not allocated is turned down. -/
def apply (arena : Arena) : NodeRequest → Arena
  | .allocate node => arena.request node
  | .shade handle => if arena.contains handle then arena.shade handle else arena

/-- The handle of the new node, if the request brings one about. -/
def bornBy (arena : Arena) : NodeRequest → Option Handle
  | .allocate node => arena.newborn? node
  | .shade _ => none

/-- The handles that the request shades if it succeeds: the children of a new node, the node
that is shared, or the one it names. -/
def rootsOf (arena : Arena) : NodeRequest → List Handle
  | .allocate node => arena.shadedBy node
  | .shade handle => if arena.contains handle then [handle] else []

theorem apply_shade (arena : Arena) (handle : Handle) : arena.apply (.shade handle) =
    if arena.contains handle then arena.shade handle else arena := rfl

theorem rootsOf_shade (arena : Arena) (handle : Handle) : arena.rootsOf (.shade handle) =
    if arena.contains handle then [handle] else [] := rfl

@[simp] theorem apply_epoch (arena : Arena) (request : NodeRequest) :
    (arena.apply request).epoch = arena.epoch := by
  cases request with
  | allocate node => exact request_epoch arena node
  | shade handle =>
      rw [apply_shade]
      split
      · exact shade_epoch arena handle
      · rfl

@[simp] theorem apply_cycleActive (arena : Arena) (request : NodeRequest) :
    (arena.apply request).cycleActive = arena.cycleActive := by
  cases request with
  | allocate node => exact request_cycleActive arena node
  | shade handle =>
      rw [apply_shade]
      split
      · exact shade_cycleActive arena handle
      · rfl

/-- To shade what is not allocated would have changed no node either. -/
theorem node?_apply_shade (arena : Arena) (root handle : Handle) :
    (arena.apply (.shade root)).node? handle = arena.node? handle := by
  rw [apply_shade]
  split
  · exact node?_shade arena root handle
  · rfl

theorem Coherent.apply (hcoherent : arena.Coherent issued) (request : NodeRequest) :
    ∃ issued', (arena.apply request).Coherent issued' := by
  cases request with
  | allocate node => exact hcoherent.request node
  | shade handle =>
      rw [apply_shade]
      split
      · exact ⟨issued, hcoherent.shade handle⟩
      · exact ⟨issued, hcoherent⟩

theorem Coherent.extends_apply (hcoherent : arena.Coherent issued) (request : NodeRequest) :
    Extends arena (arena.apply request) := by
  cases request with
  | allocate node => exact hcoherent.extends_request node
  | shade root => exact fun handle _ hnode => (node?_apply_shade arena root handle).trans hnode

theorem Coherent.childrenAllocated_apply (hcoherent : arena.Coherent issued)
    (hclosed : arena.ChildrenAllocated) (request : NodeRequest) :
    (arena.apply request).ChildrenAllocated := by
  cases request with
  | allocate node => exact hcoherent.childrenAllocated_request hclosed node
  | shade root =>
      intro parent node hparent child hmem
      rw [node?_apply_shade] at hparent
      exact (hcoherent.extends_apply (.shade root)).contains
        (hclosed parent node hparent child hmem)

/-- Allocated after a request is what was allocated before, and the new node. -/
theorem Coherent.contains_apply_iff (hcoherent : arena.Coherent issued) (request : NodeRequest)
    {handle : Handle} :
    (arena.apply request).contains handle = true ↔
      arena.contains handle = true ∨ arena.bornBy request = some handle := by
  cases request with
  | allocate node =>
      rw [contains_iff, contains_iff, Arena.apply, bornBy]
      simp only [hcoherent.node?_request]
      by_cases hnewborn : arena.newborn? node = some handle
      · simp [hnewborn]
      · simp [hnewborn]
  | shade root =>
      rw [contains_iff, contains_iff, node?_apply_shade]
      simp [bornBy]

/-- Only allocated nodes are shaded. -/
theorem Coherent.contains_of_mem_rootsOf (hcoherent : arena.Coherent issued)
    {request : NodeRequest} {root : Handle} (hroot : root ∈ arena.rootsOf request) :
    arena.contains root = true := by
  cases request with
  | allocate node =>
      rw [rootsOf] at hroot
      rcases hcoherent.request_cases node with
        ⟨-, -, hshaded⟩ | ⟨shared, hnode, -, -, hshaded⟩ | ⟨_, -, hchildren, -, hshaded, -⟩
      · simp [hshaded] at hroot
      · rw [hshaded, List.mem_singleton] at hroot
        exact contains_of_node? (hroot ▸ hnode)
      · exact hchildren root (hshaded ▸ hroot)
  | shade handle =>
      rw [rootsOf_shade] at hroot
      split at hroot
      · rename_i hcontains
        exact List.mem_singleton.mp hroot ▸ hcontains
      · cases hroot

/-- **What a request keeps: the new node and the allocated nodes below what it shades.** -/
theorem Coherent.kept_apply_iff (hcoherent : arena.Coherent issued)
    (hclosed : arena.BarrierClosed) (hactive : arena.cycleActive = true) (request : NodeRequest)
    {handle : Handle} :
    (arena.apply request).Kept handle ↔ arena.Kept handle ∨
      arena.bornBy request = some handle ∨
      (∃ root ∈ arena.rootsOf request, arena.Below root handle) ∧
        arena.contains handle = true := by
  cases request with
  | allocate node => exact hcoherent.kept_request_iff hclosed hactive node
  | shade root =>
      rw [apply_shade, rootsOf_shade, bornBy]
      split
      · rw [hclosed.kept_shade_iff hactive]
        simp
      · simp

theorem Coherent.barrierClosed_apply (hcoherent : arena.Coherent issued)
    (hclosed : arena.BarrierClosed) (hactive : arena.cycleActive = true)
    (request : NodeRequest) : (arena.apply request).BarrierClosed := by
  cases request with
  | allocate node => exact hcoherent.barrierClosed_request hclosed node hactive
  | shade root =>
      rw [apply_shade]
      split
      · exact hclosed.shade root
      · exact hclosed

theorem Coherent.kept_of_apply (hcoherent : arena.Coherent issued)
    (hclosed : arena.BarrierClosed) (hactive : arena.cycleActive = true) (request : NodeRequest)
    {handle : Handle} (hkept : arena.Kept handle) : (arena.apply request).Kept handle :=
  (hcoherent.kept_apply_iff hclosed hactive request).mpr (.inl hkept)

/-! ### A run of requests -/

/-- The arena after requests made one after the other. -/
def applyAll (arena : Arena) (requests : List NodeRequest) : Arena :=
  requests.foldl apply arena

/-- The handles of the nodes born during a run. -/
def bornIn (arena : Arena) : List NodeRequest → List Handle
  | [] => []
  | request :: rest => (arena.bornBy request).toList ++ (arena.apply request).bornIn rest

/-- The handles shaded during a run. -/
def rootsIn (arena : Arena) : List NodeRequest → List Handle
  | [] => []
  | request :: rest => arena.rootsOf request ++ (arena.apply request).rootsIn rest

@[simp] theorem applyAll_nil (arena : Arena) : arena.applyAll [] = arena := rfl

@[simp] theorem applyAll_cons (arena : Arena) (request : NodeRequest)
    (rest : List NodeRequest) :
    arena.applyAll (request :: rest) = (arena.apply request).applyAll rest := rfl

@[simp] theorem applyAll_cycleActive (arena : Arena) (requests : List NodeRequest) :
    (arena.applyAll requests).cycleActive = arena.cycleActive := by
  induction requests generalizing arena with
  | nil => rfl
  | cons request rest ih => rw [applyAll_cons, ih, apply_cycleActive]

theorem Coherent.applyAll (hcoherent : arena.Coherent issued) (requests : List NodeRequest) :
    ∃ issued', (arena.applyAll requests).Coherent issued' := by
  induction requests generalizing arena issued with
  | nil => exact ⟨issued, hcoherent⟩
  | cons request rest ih =>
      obtain ⟨_, happly⟩ := hcoherent.apply request
      exact ih happly

theorem Coherent.extends_applyAll (hcoherent : arena.Coherent issued)
    (requests : List NodeRequest) : Extends arena (arena.applyAll requests) := by
  induction requests generalizing arena issued with
  | nil => exact .refl arena
  | cons request rest ih =>
      obtain ⟨_, happly⟩ := hcoherent.apply request
      exact (hcoherent.extends_apply request).trans (ih happly)

theorem Coherent.childrenAllocated_applyAll (hcoherent : arena.Coherent issued)
    (hclosed : arena.ChildrenAllocated) (requests : List NodeRequest) :
    (arena.applyAll requests).ChildrenAllocated := by
  induction requests generalizing arena issued with
  | nil => exact hclosed
  | cons request rest ih =>
      obtain ⟨_, happly⟩ := hcoherent.apply request
      exact ih happly (hcoherent.childrenAllocated_apply hclosed request)

theorem Coherent.contains_applyAll_iff (hcoherent : arena.Coherent issued)
    (requests : List NodeRequest) {handle : Handle} :
    (arena.applyAll requests).contains handle = true ↔
      arena.contains handle = true ∨ handle ∈ arena.bornIn requests := by
  induction requests generalizing arena issued with
  | nil => simp [bornIn]
  | cons request rest ih =>
      obtain ⟨_, happly⟩ := hcoherent.apply request
      rw [applyAll_cons, ih happly, hcoherent.contains_apply_iff, bornIn, List.mem_append,
        Option.mem_toList, or_assoc]

/-- **What a run of requests keeps, in an arena without gaps.** -/
theorem Coherent.kept_applyAll_iff (hcoherent : arena.Coherent issued)
    (hgapless : arena.ChildrenAllocated) (hclosed : arena.BarrierClosed)
    (hactive : arena.cycleActive = true) (requests : List NodeRequest) {handle : Handle} :
    (arena.applyAll requests).Kept handle ↔ arena.Kept handle ∨
      handle ∈ arena.bornIn requests ∨
      ∃ root ∈ arena.rootsIn requests, (arena.applyAll requests).Below root handle := by
  -- the roots of the first request come before those of the rest, and so do the newborn nodes
  induction requests generalizing arena issued with
  | nil => simp [bornIn, rootsIn]
  | cons request rest ih =>
      obtain ⟨_, happly⟩ := hcoherent.apply request
      have hextends := hcoherent.extends_applyAll (request :: rest)
      -- below what this request shades lie the same nodes now as at the end of the run
      have hbelow : ∀ root ∈ arena.rootsOf request,
          (arena.Below root handle ∧ arena.contains handle = true ↔
            (arena.applyAll (request :: rest)).Below root handle) := by
        intro root hroot
        have hintact := hgapless.intact (hcoherent.contains_of_mem_rootsOf hroot)
        rw [hintact.below_iff hextends]
        exact ⟨And.left, fun h => ⟨h, hintact handle h⟩⟩
      have hroots : (∃ root ∈ arena.rootsOf request, arena.Below root handle) ∧
          arena.contains handle = true ↔ ∃ root ∈ arena.rootsOf request,
            (arena.applyAll (request :: rest)).Below root handle := by
        constructor
        · rintro ⟨⟨root, hroot, h⟩, hcontains⟩
          exact ⟨root, hroot, (hbelow root hroot).mp ⟨h, hcontains⟩⟩
        · rintro ⟨root, hroot, h⟩
          obtain ⟨hbefore, hcontains⟩ := (hbelow root hroot).mpr h
          exact ⟨⟨root, hroot, hbefore⟩, hcontains⟩
      rw [applyAll_cons] at hroots ⊢
      rw [ih happly (hcoherent.childrenAllocated_apply hgapless request)
        (hcoherent.barrierClosed_apply hclosed hactive request)
        ((apply_cycleActive arena request).trans hactive),
        hcoherent.kept_apply_iff hclosed hactive, hroots]
      simp only [bornIn, rootsIn, List.mem_append, Option.mem_toList, or_and_right, exists_or]
      constructor
      · rintro ((h | h | h) | h | h)
        · exact .inl h
        · exact .inr (.inl (.inl h))
        · exact .inr (.inr (.inl h))
        · exact .inr (.inl (.inr h))
        · exact .inr (.inr (.inr h))
      · rintro (h | (h | h) | h | h)
        · exact .inl (.inl h)
        · exact .inl (.inr (.inl h))
        · exact .inr (.inl h)
        · exact .inl (.inr (.inr h))
        · exact .inr (.inr h)

end Arena

end ExprHeap
