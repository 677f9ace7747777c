import ExprHeap.Proofs.Allocation

/-!
# The allocation barrier

While a cycle is active, a node that was born or shaded in its epoch is *kept*.
The barrier is *closed* when every allocated child of a kept node is kept.  It
is trivially closed when a cycle begins, since then nothing is kept, and every
request keeps it closed, whatever its arguments; children that are gone play no
part in it.

In an arena with a closed barrier, shading a node adds to what is kept exactly
the allocated nodes below it (`BarrierClosed.kept_shade_iff`), though the
traversal stops at nodes that are kept already: below those everything is kept.
For a request for a node this becomes `Coherent.kept_request_iff`.
-/

namespace ExprHeap

namespace Arena

variable {arena : Arena} {issued : Nat}

/-- A handle names a node that was born or shaded in the current epoch. -/
def Kept (arena : Arena) (handle : Handle) : Prop :=
  ∃ entry, arena.table.entryOf? handle = some entry ∧ entry.isKept arena.epoch = true

/-- Every allocated child of a kept node is kept. -/
def BarrierClosed (arena : Arena) : Prop :=
  ∀ parent child node, arena.Kept parent → arena.node? parent = some node →
    child ∈ node.children → arena.contains child = true → arena.Kept child

theorem Kept.contains {handle : Handle} (hkept : arena.Kept handle) :
    arena.contains handle = true := by
  obtain ⟨entry, hentry, -⟩ := hkept
  simp [Arena.contains, hentry]

theorem exists_entry_of_contains {handle : Handle} (hcontains : arena.contains handle = true) :
    ∃ entry, arena.table.entryOf? handle = some entry :=
  Option.isSome_iff_exists.mp hcontains

theorem contains_of_entryOf? {handle : Handle} {entry : Entry}
    (hentry : arena.table.entryOf? handle = some entry) : arena.contains handle = true :=
  Option.isSome_iff_exists.mpr ⟨entry, hentry⟩

/-- An allocated handle is kept or its entry is unkept. -/
theorem kept_or_unkept {handle : Handle} (hcontains : arena.contains handle = true) :
    arena.Kept handle ∨ ∃ entry, arena.table.Unkept arena.epoch handle entry := by
  obtain ⟨entry, hentry⟩ := exists_entry_of_contains hcontains
  cases hkept : entry.isKept arena.epoch with
  | true => exact .inl ⟨entry, hentry, hkept⟩
  | false => exact .inr ⟨entry, hentry, hkept⟩

/-- Nothing is kept when a cycle begins. -/
theorem Coherent.not_kept_beginCycle (hcoherent : arena.Coherent issued) (handle : Handle) :
    ¬ arena.beginCycle.Kept handle := by
  rintro ⟨entry, hentry, hkept⟩
  -- no stamp is as late as the new epoch
  obtain ⟨hborn, hshaded⟩ := hcoherent.stamps_le handle entry hentry
  simp only [Entry.isKept, Arena.beginCycle, Bool.or_eq_true, beq_iff_eq] at hkept
  omega

theorem Coherent.barrierClosed_beginCycle (hcoherent : arena.Coherent issued) :
    arena.beginCycle.BarrierClosed :=
  fun parent _ _ hparent => absurd hparent (hcoherent.not_kept_beginCycle parent)

/-- Everything allocated below a kept node is kept. -/
theorem BarrierClosed.kept_of_below (hclosed : arena.BarrierClosed) {root handle : Handle}
    (hroot : arena.Kept root) (hbelow : arena.Below root handle)
    (hcontains : arena.contains handle = true) : arena.Kept handle := by
  induction hbelow with
  | here => exact hroot
  | child _ hnode hmem ih =>
      exact hclosed _ _ _ (ih (contains_of_node? hnode)) hnode hmem hcontains

/-! ### Shading -/

theorem below_of_unkeptPath {root handle : Handle} {epoch : Nat}
    (hpath : arena.table.UnkeptPath epoch root handle) : arena.Below root handle := by
  induction hpath with
  | here _ => exact .here
  | child _ hparent hmem _ ih => exact .child ih (node?_eq_some_iff.mpr ⟨_, hparent.1, rfl⟩) hmem

theorem kept_shade_iff {root handle : Handle} :
    (arena.shade root).Kept handle ↔ arena.Kept handle ∨
      arena.cycleActive = true ∧ arena.table.UnkeptPath arena.epoch root handle := by
  unfold Kept
  rw [entryOf?_shade, shade_epoch]
  by_cases hpath : arena.cycleActive = true ∧ arena.table.UnkeptPath arena.epoch root handle
  · obtain ⟨entry, hentry, -⟩ := hpath.2.exists_unkept
    simp [hpath, hentry, Entry.isKept]
  · simp [hpath]

theorem Kept.shade {handle : Handle} (hkept : arena.Kept handle) (root : Handle) :
    (arena.shade root).Kept handle :=
  kept_shade_iff.mpr (.inl hkept)

theorem BarrierClosed.shade (hclosed : arena.BarrierClosed) (root : Handle) :
    (arena.shade root).BarrierClosed := by
  intro parent child node hparent hnode hmem hchild
  rw [node?_shade] at hnode
  rw [contains_shade] at hchild
  rcases kept_shade_iff.mp hparent with hkept | ⟨hactive, hpath⟩
  · exact (hclosed parent child node hkept hnode hmem hchild).shade root
  · rcases kept_or_unkept hchild with hkept | ⟨entry, hunkept⟩
    · exact hkept.shade root
    · -- the path to the parent goes on to the child
      obtain ⟨parentEntry, hparentEntry⟩ := hpath.exists_unkept
      obtain ⟨other, hother, rfl⟩ := node?_eq_some_iff.mp hnode
      obtain rfl := Option.some.inj (hparentEntry.1.symm.trans hother)
      exact kept_shade_iff.mpr (.inr ⟨hactive, .child hpath hparentEntry hmem hunkept⟩)

/-- A node that is shaded in a cycle is kept. -/
theorem kept_shade_self {root : Handle} (hactive : arena.cycleActive = true)
    (hcontains : arena.contains root = true) : (arena.shade root).Kept root := by
  rcases kept_or_unkept hcontains with hkept | ⟨entry, hunkept⟩
  · exact hkept.shade root
  · exact kept_shade_iff.mpr (.inr ⟨hactive, .here hunkept⟩)

theorem extends_shade (arena : Arena) (root : Handle) : Extends arena (arena.shade root) :=
  fun handle _ hnode => (node?_shade arena root handle).trans hnode

/-- **With a closed barrier, shading keeps exactly the allocated nodes below the root.** -/
theorem BarrierClosed.kept_shade_iff (hclosed : arena.BarrierClosed)
    (hactive : arena.cycleActive = true) {root handle : Handle} :
    (arena.shade root).Kept handle ↔
      arena.Kept handle ∨ arena.Below root handle ∧ arena.contains handle = true := by
  constructor
  · intro hkept
    rcases Arena.kept_shade_iff.mp hkept with hbefore | ⟨-, hpath⟩
    · exact .inl hbefore
    · exact .inr ⟨below_of_unkeptPath hpath, by simpa using hkept.contains⟩
  · rintro (hkept | ⟨hbelow, hcontains⟩)
    · exact hkept.shade root
    · -- the traversal may have stopped above the node, but only where all below is kept
      rcases hbelow.cases_head with rfl | ⟨node, hnode, -⟩
      · exact kept_shade_self hactive hcontains
      · exact (hclosed.shade root).kept_of_below
          (kept_shade_self hactive (contains_of_node? hnode))
          (hbelow.mono (extends_shade arena root)) (by simpa using hcontains)

theorem BarrierClosed.kept_foldl_shade_iff (hclosed : arena.BarrierClosed)
    (hactive : arena.cycleActive = true) {roots : List Handle} {handle : Handle} :
    (roots.foldl Arena.shade arena).Kept handle ↔
      arena.Kept handle ∨
        (∃ root ∈ roots, arena.Below root handle) ∧ arena.contains handle = true := by
  induction roots generalizing arena with
  | nil => simp
  | cons root rest ih =>
      -- shading changes no node, so what lies below the roots to come stays the same
      have hbelow : ∀ other, (arena.shade root).Below other handle ↔ arena.Below other handle := by
        intro other
        refine ⟨fun h => h.mono ?_, fun h => h.mono (extends_shade arena root)⟩
        exact fun handle _ hnode => (node?_shade arena root handle).symm.trans hnode
      rw [List.foldl_cons, ih (hclosed.shade root) (by simpa using hactive),
        hclosed.kept_shade_iff hactive, contains_shade]
      simp only [hbelow, List.mem_cons, exists_eq_or_imp]
      constructor
      · rintro ((hkept | hroot) | ⟨hrest, hcontains⟩)
        · exact .inl hkept
        · exact .inr ⟨.inl hroot.1, hroot.2⟩
        · exact .inr ⟨.inr hrest, hcontains⟩
      · rintro (hkept | ⟨hroot | hrest, hcontains⟩)
        · exact .inl (.inl hkept)
        · exact .inl (.inr ⟨hroot, hcontains⟩)
        · exact .inr ⟨hrest, hcontains⟩

/-! ### Requests for a node -/

/-- The handle of the new node, if a request for a node is answered with one. -/
def newborn? (arena : Arena) (node : Node) : Option Handle :=
  match arena.allocate node with
  | .ok (.fresh handle, _) => some handle
  | .ok (.shared _, _) => none
  | .error _ => none

/-- What a request for a node shades: the children of a new node, or the node that is shared. -/
def shadedBy (arena : Arena) (node : Node) : List Handle :=
  match arena.allocate node with
  | .ok (.fresh _, _) => node.children
  | .ok (.shared handle, _) => [handle]
  | .error _ => []

/-- What a request for a node can do. -/
theorem Coherent.request_cases (hcoherent : arena.Coherent issued) (node : Node) :
    (arena.request node = arena ∧ arena.newborn? node = none ∧ arena.shadedBy node = []) ∨
      (∃ handle, arena.node? handle = some node ∧ arena.request node = arena.shade handle ∧
        arena.newborn? node = none ∧ arena.shadedBy node = [handle]) ∨
      ∃ handle, arena.contains handle = false ∧
        (∀ child ∈ node.children, arena.contains child = true) ∧
        arena.newborn? node = some handle ∧ arena.shadedBy node = node.children ∧
        ∀ other, (arena.request node).table.entryOf? other =
          if other = handle then some ⟨node, arena.epoch, 0⟩
          else (node.children.foldl Arena.shade arena).table.entryOf? other := by
  cases hallocate : arena.allocate node with
  | error error =>
      refine .inl ⟨request_of_error hallocate, ?_, ?_⟩
      · simp only [newborn?, hallocate]
      · simp only [shadedBy, hallocate]
  | ok answer =>
      obtain ⟨allocation, after⟩ := answer
      obtain ⟨-, hchildren, ⟨handle, rfl, hinterned, rfl⟩ | ⟨-, -, hfresh, -⟩⟩ :=
        allocate_cases hallocate
      · refine .inr (.inl ⟨handle, (hcoherent.interned_iff node handle).mp hinterned,
          request_of_ok hallocate, ?_, ?_⟩)
        · simp only [newborn?, hallocate]
        · simp only [shadedBy, hallocate]
      · rw [hfresh] at hallocate
        obtain ⟨hnew, hentry, hother⟩ := hcoherent.allocate_fresh hallocate
        refine .inr (.inr ⟨_, hnew, hchildren, ?_, ?_, ?_⟩)
        · simp only [newborn?, hallocate]
        · simp only [shadedBy, hallocate]
        · intro other
          rw [request_of_ok hallocate]
          split
          · rename_i hsame
            rw [hsame, hentry]
          · rename_i hne
            exact hother other hne

/-- The nodes after a request: those that were there, and the new one. -/
theorem Coherent.node?_request (hcoherent : arena.Coherent issued) (node : Node)
    (handle : Handle) :
    (arena.request node).node? handle =
      if arena.newborn? node = some handle then some node else arena.node? handle := by
  have hfold : ∀ roots : List Handle, (roots.foldl Arena.shade arena).node? handle =
      arena.node? handle := fun roots =>
    foldl_shade_eq (fun arena => arena.node? handle) (fun arena root => node?_shade arena root _)
      roots arena
  rcases hcoherent.request_cases node with
    ⟨hrequest, hnewborn, -⟩ | ⟨shared, -, hrequest, hnewborn, -⟩ |
      ⟨fresh, -, -, hnewborn, -, hentry⟩
  · simp [hrequest, hnewborn]
  · simp [hrequest, hnewborn]
  · rw [node?, hentry, hnewborn]
    by_cases hsame : handle = fresh
    · simp [hsame]
    · rw [if_neg hsame, if_neg fun h => hsame (Option.some.inj h).symm]
      exact hfold node.children

/-- A new node gets a handle that named nothing, its children are allocated, and they are what
is shaded. -/
theorem Coherent.newborn_spec (hcoherent : arena.Coherent issued) {node : Node}
    {handle : Handle} (hnewborn : arena.newborn? node = some handle) :
    arena.contains handle = false ∧ (∀ child ∈ node.children, arena.contains child = true) ∧
      arena.shadedBy node = node.children := by
  rcases hcoherent.request_cases node with
    ⟨-, hnone, -⟩ | ⟨_, -, -, hnone, -⟩ | ⟨fresh, hnew, hchildren, hsome, hshaded, -⟩
  · simp [hnone] at hnewborn
  · simp [hnone] at hnewborn
  · obtain rfl := Option.some.inj (hsome.symm.trans hnewborn)
    exact ⟨hnew, hchildren, hshaded⟩

theorem Coherent.extends_request (hcoherent : arena.Coherent issued) (node : Node) :
    Extends arena (arena.request node) := by
  intro handle old hold
  rw [hcoherent.node?_request]
  split
  · rename_i hnewborn
    have hnew := (hcoherent.newborn_spec hnewborn).1
    rw [contains_of_node? hold] at hnew
    cases hnew
  · exact hold

/-- A request leaves no gaps in an arena without gaps. -/
theorem Coherent.childrenAllocated_request (hcoherent : arena.Coherent issued)
    (hclosed : arena.ChildrenAllocated) (node : Node) :
    (arena.request node).ChildrenAllocated := by
  intro parent parentNode hparent child hmem
  apply (hcoherent.extends_request node).contains
  rw [hcoherent.node?_request] at hparent
  split at hparent
  · rename_i hnewborn
    obtain rfl := Option.some.inj hparent
    exact (hcoherent.newborn_spec hnewborn).2.1 child hmem
  · exact hclosed parent parentNode hparent child hmem

/-- **With a closed barrier, a request keeps the new node and the allocated nodes below what it
shades.** -/
theorem Coherent.kept_request_iff (hcoherent : arena.Coherent issued)
    (hclosed : arena.BarrierClosed) (hactive : arena.cycleActive = true) (node : Node)
    {handle : Handle} :
    (arena.request node).Kept handle ↔ arena.Kept handle ∨ arena.newborn? node = some handle ∨
      (∃ root ∈ arena.shadedBy node, arena.Below root handle) ∧
        arena.contains handle = true := by
  rcases hcoherent.request_cases node with
    ⟨hrequest, hnewborn, hshaded⟩ | ⟨shared, -, hrequest, hnewborn, hshaded⟩ |
      ⟨fresh, -, -, hnewborn, hshaded, hentry⟩
  · simp [hrequest, hnewborn, hshaded]
  · simp [hrequest, hnewborn, hshaded, hclosed.kept_shade_iff hactive]
  · rw [hnewborn, hshaded, Option.some.injEq]
    -- the new node is kept as newborn; every other entry is as shading the children leaves it
    by_cases hsame : handle = fresh
    · subst hsame
      have hkept : (arena.request node).Kept handle :=
        ⟨_, (hentry handle).trans (if_pos rfl), by simp [Entry.isKept]⟩
      simp [hkept]
    · have hfold : (arena.request node).Kept handle ↔
          (node.children.foldl Arena.shade arena).Kept handle := by
        unfold Kept
        rw [hentry, if_neg hsame, request_epoch, foldl_shade_eq Arena.epoch shade_epoch]
      rw [hfold, hclosed.kept_foldl_shade_iff hactive]
      simp [Ne.symm hsame]

theorem Coherent.barrierClosed_request (hcoherent : arena.Coherent issued)
    (hclosed : arena.BarrierClosed) (node : Node) (hactive : arena.cycleActive = true) :
    (arena.request node).BarrierClosed := by
  intro parent child parentNode hparent hnode hmem hchild
  have hkeptIff : ∀ {handle : Handle}, (arena.request node).Kept handle ↔ arena.Kept handle ∨
      arena.newborn? node = some handle ∨
        (∃ root ∈ arena.shadedBy node, arena.Below root handle) ∧ arena.contains handle = true :=
    hcoherent.kept_request_iff hclosed hactive node
  -- a child that was there before is kept if it was kept before or lies below what is shaded
  have hbelow : arena.contains child = true → (arena.Kept child ∨
      ∃ root ∈ arena.shadedBy node, arena.Below root child) → (arena.request node).Kept child := by
    intro hold hcases
    rcases hcases with hkept | hroot
    · exact hkeptIff.mpr (.inl hkept)
    · exact hkeptIff.mpr (.inr (.inr ⟨hroot, hold⟩))
  by_cases hnewborn : arena.newborn? node = some child
  · exact hkeptIff.mpr (.inr (.inl hnewborn))
  have hold : arena.contains child = true := by
    obtain ⟨childNode, hchildNode⟩ := contains_iff.mp hchild
    rw [hcoherent.node?_request, if_neg hnewborn] at hchildNode
    exact contains_of_node? hchildNode
  rw [hcoherent.node?_request] at hnode
  split at hnode
  · rename_i hfresh
    obtain rfl := Option.some.inj hnode
    have hshaded := (hcoherent.newborn_spec hfresh).2.2
    exact hbelow hold (.inr ⟨child, hshaded ▸ hmem, .here⟩)
  · -- a parent that was there is kept for one of three reasons, and each passes to the child
    rcases hkeptIff.mp hparent with hkept | hfresh | ⟨⟨root, hroot, hparentBelow⟩, -⟩
    · exact hbelow hold (.inl (hclosed parent child parentNode hkept hnode hmem hold))
    · exact absurd hfresh ‹_›
    · exact hbelow hold (.inr ⟨root, hroot, .child hparentBelow hnode hmem⟩)

/-! ### The sweep of the current epoch -/

/-- What is kept is not swept. -/
theorem Kept.not_reclaimable {handle : Handle} {isLive : Handle → Bool}
    (hkept : arena.Kept handle) : ¬ arena.Reclaimable arena.epoch isLive handle := by
  rintro ⟨entry, hentry, hborn, hshaded, -⟩
  obtain ⟨other, hother, hisKept⟩ := hkept
  obtain rfl := Option.some.inj (hentry.symm.trans hother)
  simp only [Entry.isKept, Bool.or_eq_true, beq_iff_eq] at hisKept
  omega

open Classical in
theorem Coherent.node?_reclaim (hcoherent : arena.Coherent issued) (epoch : Nat)
    (isLive : Handle → Bool) (index : Nat) (handle : Handle) :
    (arena.reclaim epoch isLive index).2.node? handle =
      if handle.index.toNat = index ∧ arena.Reclaimable epoch isLive handle then none
      else arena.node? handle := by
  unfold node?
  rw [hcoherent.entryOf?_reclaim]
  split <;> rfl

theorem Coherent.kept_reclaim_iff (hcoherent : arena.Coherent issued) {isLive : Handle → Bool}
    {index : Nat} {handle : Handle} :
    (arena.reclaim arena.epoch isLive index).2.Kept handle ↔ arena.Kept handle := by
  unfold Kept
  rw [hcoherent.entryOf?_reclaim, reclaim_epoch]
  by_cases hreclaim : handle.index.toNat = index ∧
      arena.Reclaimable arena.epoch isLive handle
  · rw [if_pos hreclaim]
    have hnot : ¬ arena.Kept handle := fun hkept => hkept.not_reclaimable hreclaim.2
    simpa [Kept] using hnot
  · rw [if_neg hreclaim]

/-- A node that the sweep leaves is there with the same content. -/
theorem Coherent.node?_of_reclaim (hcoherent : arena.Coherent issued) {epoch index : Nat}
    {isLive : Handle → Bool} {handle : Handle} {node : Node}
    (hnode : (arena.reclaim epoch isLive index).2.node? handle = some node) :
    arena.node? handle = some node := by
  rw [hcoherent.node?_reclaim] at hnode
  split at hnode
  · cases hnode
  · exact hnode

theorem Coherent.barrierClosed_reclaim (hcoherent : arena.Coherent issued)
    (hclosed : arena.BarrierClosed) (isLive : Handle → Bool) (index : Nat) :
    (arena.reclaim arena.epoch isLive index).2.BarrierClosed := by
  intro parent child node hparent hnode hmem hchild
  obtain ⟨childNode, hchildNode⟩ := contains_iff.mp hchild
  rw [hcoherent.kept_reclaim_iff] at hparent ⊢
  exact hclosed parent child node hparent (hcoherent.node?_of_reclaim hnode) hmem
    (contains_of_node? (hcoherent.node?_of_reclaim hchildNode))

end Arena

end ExprHeap
