import ExprHeap.Proofs.Slots

/-!
# What lies below a node

`Arena.Below root handle` says that a path along children leads from `root` to
`handle`.  Every node on the path but the last must be allocated, since only an
allocated node has children; the last need not be, so that a child that is gone
still counts as lying below its parent.

A handle is *intact* when nothing below it is gone.  In an arena all of whose
children are allocated every node is intact, and what lies below an intact
handle stays the same for as long as the nodes there are kept
(`Intact.below_iff`).
-/

namespace ExprHeap

namespace Arena

variable {arena before after : Arena}

theorem node?_eq_some_iff {handle : Handle} {node : Node} :
    arena.node? handle = some node ↔
      ∃ entry, arena.table.entryOf? handle = some entry ∧ entry.node = node :=
  Option.map_eq_some_iff

theorem contains_iff {handle : Handle} :
    arena.contains handle = true ↔ ∃ node, arena.node? handle = some node := by
  unfold contains node?
  cases arena.table.entryOf? handle <;> simp

theorem contains_of_node? {handle : Handle} {node : Node} (hnode : arena.node? handle = some node) :
    arena.contains handle = true :=
  contains_iff.mpr ⟨node, hnode⟩

/-- A path along children leads from `root` to a handle. -/
inductive Below (arena : Arena) (root : Handle) : Handle → Prop
  | here : Below arena root root
  | child {parent child : Handle} {node : Node} : Below arena root parent →
      arena.node? parent = some node → child ∈ node.children → Below arena root child

theorem Below.trans {first second third : Handle} (hfirst : arena.Below first second)
    (hsecond : arena.Below second third) : arena.Below first third := by
  induction hsecond with
  | here => exact hfirst
  | child _ hnode hmem ih => exact .child ih hnode hmem

theorem Below.of_child {root child handle : Handle} {node : Node}
    (hnode : arena.node? root = some node) (hmem : child ∈ node.children)
    (hbelow : arena.Below child handle) : arena.Below root handle :=
  Below.trans (.child .here hnode hmem) hbelow

/-- Below a node lie the node itself and what lies below its children. -/
theorem Below.cases_head {root handle : Handle} (hbelow : arena.Below root handle) :
    handle = root ∨ ∃ node, arena.node? root = some node ∧
      ∃ child ∈ node.children, arena.Below child handle := by
  induction hbelow with
  | here => exact .inl rfl
  | @child parent child node _ hnode hmem ih =>
      rcases ih with rfl | ⟨rootNode, hroot, first, hfirst, hbelow⟩
      · exact .inr ⟨node, hnode, child, hmem, .here⟩
      · exact .inr ⟨rootNode, hroot, first, hfirst, .child hbelow hnode hmem⟩

theorem below_iff_of_node? {root handle : Handle} {node : Node}
    (hnode : arena.node? root = some node) : arena.Below root handle ↔
      handle = root ∨ ∃ child ∈ node.children, arena.Below child handle := by
  constructor
  · intro hbelow
    rcases hbelow.cases_head with rfl | ⟨other, hother, child, hmem, hrest⟩
    · exact .inl rfl
    · obtain rfl := Option.some.inj (hnode.symm.trans hother)
      exact .inr ⟨child, hmem, hrest⟩
  · rintro (rfl | ⟨child, hmem, hrest⟩)
    · exact .here
    · exact .of_child hnode hmem hrest

/-- Every node of the one arena is a node of the other, under the same handle. -/
def Extends (before after : Arena) : Prop :=
  ∀ handle node, before.node? handle = some node → after.node? handle = some node

theorem Extends.refl (arena : Arena) : Extends arena arena := fun _ _ hnode => hnode

theorem Extends.trans {first second third : Arena} (hfirst : Extends first second)
    (hsecond : Extends second third) : Extends first third :=
  fun handle node hnode => hsecond handle node (hfirst handle node hnode)

theorem Extends.contains {handle : Handle} (hextends : Extends before after)
    (hcontains : before.contains handle = true) : after.contains handle = true := by
  obtain ⟨node, hnode⟩ := contains_iff.mp hcontains
  exact contains_of_node? (hextends handle node hnode)

theorem Below.mono {root handle : Handle} (hextends : Extends before after)
    (hbelow : before.Below root handle) : after.Below root handle := by
  induction hbelow with
  | here => exact .here
  | child _ hnode hmem ih => exact .child ih (hextends _ _ hnode) hmem

/-! ## Intact handles -/

/-- Everything below a handle is allocated, the handle included. -/
def Intact (arena : Arena) (root : Handle) : Prop :=
  ∀ handle, arena.Below root handle → arena.contains handle = true

theorem Intact.contains {root : Handle} (hintact : arena.Intact root) :
    arena.contains root = true :=
  hintact root .here

theorem Intact.below {root handle : Handle} (hintact : arena.Intact root)
    (hbelow : arena.Below root handle) : arena.Intact handle :=
  fun other hother => hintact other (hbelow.trans hother)

theorem Intact.child {root child : Handle} {node : Node} (hintact : arena.Intact root)
    (hnode : arena.node? root = some node) (hmem : child ∈ node.children) : arena.Intact child :=
  hintact.below (.child .here hnode hmem)

/-- A node is intact if its children are. -/
theorem intact_of_children {root : Handle} {node : Node} (hnode : arena.node? root = some node)
    (hchildren : ∀ child ∈ node.children, arena.Intact child) : arena.Intact root := by
  intro handle hbelow
  rcases hbelow.cases_head with rfl | ⟨other, hother, child, hmem, hbelow⟩
  · exact contains_of_node? hnode
  · obtain rfl := Option.some.inj (hnode.symm.trans hother)
    exact hchildren child hmem handle hbelow

/-- As long as the nodes below an intact handle are kept, the same lie below it. -/
theorem Intact.below_of_kept {root handle : Handle} (hintact : before.Intact root)
    (hkept : ∀ handle node, before.Below root handle → before.node? handle = some node →
      after.node? handle = some node) (hbelow : after.Below root handle) :
    before.Below root handle := by
  induction hbelow with
  | here => exact .here
  | @child parent child node _ hnode hmem ih =>
      obtain ⟨old, hold⟩ := contains_iff.mp (hintact parent ih)
      obtain rfl := Option.some.inj ((hkept parent old ih hold).symm.trans hnode)
      exact .child ih hold hmem

theorem Intact.of_kept {root : Handle} (hintact : before.Intact root)
    (hkept : ∀ handle node, before.Below root handle → before.node? handle = some node →
      after.node? handle = some node) : after.Intact root := by
  intro handle hbelow
  have hbefore := hintact.below_of_kept hkept hbelow
  obtain ⟨node, hnode⟩ := contains_iff.mp (hintact handle hbefore)
  exact contains_of_node? (hkept handle node hbefore hnode)

theorem Intact.below_iff {root handle : Handle} (hintact : before.Intact root)
    (hextends : Extends before after) : after.Below root handle ↔ before.Below root handle :=
  ⟨hintact.below_of_kept fun handle node _ => hextends handle node, Below.mono hextends⟩

/-! ## Arenas without gaps -/

/-- Every child of a node is allocated. -/
def ChildrenAllocated (arena : Arena) : Prop :=
  ∀ parent node, arena.node? parent = some node →
    ∀ child ∈ node.children, arena.contains child = true

theorem ChildrenAllocated.intact {root : Handle} (hclosed : arena.ChildrenAllocated)
    (hroot : arena.contains root = true) : arena.Intact root := by
  intro handle hbelow
  induction hbelow with
  | here => exact hroot
  | child _ hnode hmem _ => exact hclosed _ _ hnode _ hmem

end Arena

end ExprHeap
