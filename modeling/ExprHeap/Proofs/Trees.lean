import ExprHeap.Proofs.Descent
import Mathlib.Data.List.Forall2

/-!
# The expression that a handle denotes

A handle stands for a whole expression: the operation and the width of its node,
and the expressions of its children.  `Arena.Denotes` relates a handle to that
tree, in which no handle occurs any more, so that expressions of different arenas
can be compared.

What a handle denotes stays the same for as long as the nodes below it are kept,
whatever else happens to the arena.
-/

namespace ExprHeap

/-- A whole expression. -/
inductive Tree where
  | node (op : Op) (width : UInt32) (children : List Tree)

namespace Tree

/-- The width of the value of an expression. -/
def width : Tree → UInt32
  | .node _ width _ => width

end Tree

/-- In related lists every member of the first is related to some member of the second. -/
theorem exists_of_forall₂ {α β : Type} {relation : α → β → Prop} {ones : List α}
    {others : List β} (hall : List.Forall₂ relation ones others) {one : α} (hmem : one ∈ ones) :
    ∃ other ∈ others, relation one other := by
  induction hall with
  | nil => cases hmem
  | cons hhead _ ih =>
      rcases List.mem_cons.mp hmem with rfl | hrest
      · exact ⟨_, List.mem_cons_self, hhead⟩
      · obtain ⟨other, hother, hrelated⟩ := ih hrest
        exact ⟨other, List.mem_cons_of_mem _ hother, hrelated⟩

namespace Arena

mutual

/-- The node of a handle unfolds to a tree. -/
def Denotes (arena : Arena) : Tree → Handle → Prop
  | .node op width children, handle => ∃ operands,
    arena.node? handle = some ⟨op, operands, width⟩ ∧ DenotesAll arena children operands

/-- The nodes of several handles unfold to as many trees. -/
def DenotesAll (arena : Arena) : List Tree → List Handle → Prop
  | [], [] => True
  | tree :: trees, handle :: handles =>
    Denotes arena tree handle ∧ DenotesAll arena trees handles
  | [], _ :: _ => False
  | _ :: _, [] => False

end

variable {before after : Arena}

theorem Denotes.node? {arena : Arena} {op : Op} {width : UInt32} {children : List Tree}
    {handle : Handle} (hdenotes : arena.Denotes (.node op width children) handle) :
    ∃ operands, arena.node? handle = some ⟨op, operands, width⟩ ∧
      arena.DenotesAll children operands := by
  rwa [Denotes] at hdenotes

theorem denotes_node {arena : Arena} {op : Op} {width : UInt32} {children : List Tree}
    {handle : Handle} {operands : List Handle}
    (hnode : arena.node? handle = some ⟨op, operands, width⟩)
    (hchildren : arena.DenotesAll children operands) :
    arena.Denotes (.node op width children) handle := by
  rw [Denotes]
  exact ⟨operands, hnode, hchildren⟩

section

variable {arena : Arena} {tree : Tree} {trees : List Tree} {handle : Handle}
  {handles : List Handle}

@[simp] theorem denotesAll_nil : arena.DenotesAll [] [] := by
  rw [DenotesAll]
  trivial

@[simp] theorem denotesAll_cons :
    arena.DenotesAll (tree :: trees) (handle :: handles) ↔
      arena.Denotes tree handle ∧ arena.DenotesAll trees handles := by
  rw [DenotesAll]

@[simp] theorem not_denotesAll_nil_cons : ¬ arena.DenotesAll [] (handle :: handles) := by
  rw [DenotesAll]
  exact id

@[simp] theorem not_denotesAll_cons_nil : ¬ arena.DenotesAll (tree :: trees) [] := by
  rw [DenotesAll]
  exact id

theorem exists_denotesAll (hall : ∀ handle ∈ handles, ∃ tree, arena.Denotes tree handle) :
    ∃ trees, arena.DenotesAll trees handles := by
  induction handles with
  | nil => exact ⟨[], denotesAll_nil⟩
  | cons handle rest ih =>
      obtain ⟨⟨tree, htree⟩, hrest⟩ := List.forall_mem_cons.mp hall
      obtain ⟨trees, htrees⟩ := ih hrest
      exact ⟨tree :: trees, denotesAll_cons.mpr ⟨htree, htrees⟩⟩

/-- The trees of a list are what the handles of another denote, one by one. -/
theorem denotesAll_iff_forall₂ :
    arena.DenotesAll trees handles ↔ List.Forall₂ arena.Denotes trees handles := by
  induction trees generalizing handles with
  | nil => cases handles <;> simp
  | cons tree rest ih => cases handles <;> simp [ih]

theorem DenotesAll.append {trees' : List Tree} {handles' : List Handle}
    (hfirst : arena.DenotesAll trees handles) (hsecond : arena.DenotesAll trees' handles') :
    arena.DenotesAll (trees ++ trees') (handles ++ handles') := by
  rw [denotesAll_iff_forall₂] at hfirst hsecond ⊢
  exact List.rel_append hfirst hsecond

/-- Each of the handles denotes one of the trees. -/
theorem DenotesAll.exists_tree (hall : arena.DenotesAll trees handles) (hmem : handle ∈ handles) :
    ∃ tree ∈ trees, arena.Denotes tree handle :=
  exists_of_forall₂ (denotesAll_iff_forall₂.mp hall).flip hmem

/-- Each of the trees is denoted by one of the handles. -/
theorem DenotesAll.exists_handle (hall : arena.DenotesAll trees handles) (hmem : tree ∈ trees) :
    ∃ handle ∈ handles, arena.Denotes tree handle :=
  exists_of_forall₂ (denotesAll_iff_forall₂.mp hall) hmem

end

mutual

/-- A handle stands for one expression. -/
theorem Denotes.tree_unique {arena : Arena} : ∀ {tree tree' : Tree} {handle : Handle},
    arena.Denotes tree handle → arena.Denotes tree' handle → tree = tree'
  | .node op width children, .node op' width' children', handle, hfirst, hsecond => by
      obtain ⟨operands, hnode, hchildren⟩ := hfirst.node?
      obtain ⟨operands', hnode', hchildren'⟩ := hsecond.node?
      rw [hnode, Option.some.injEq, Node.mk.injEq] at hnode'
      obtain ⟨rfl, rfl, rfl⟩ := hnode'
      rw [DenotesAll.trees_unique hchildren hchildren']

theorem DenotesAll.trees_unique {arena : Arena} :
    ∀ {trees trees' : List Tree} {handles : List Handle},
      arena.DenotesAll trees handles → arena.DenotesAll trees' handles → trees = trees'
  | [], [], _, _, _ => rfl
  | tree :: trees, tree' :: trees', handle :: handles, hfirst, hsecond => by
      rw [denotesAll_cons] at hfirst hsecond
      rw [Denotes.tree_unique hfirst.1 hsecond.1, DenotesAll.trees_unique hfirst.2 hsecond.2]
  | [], _ :: _, [], _, hsecond => by simp at hsecond
  | [], _ :: _, _ :: _, hfirst, _ => by simp at hfirst
  | _ :: _, [], [], hfirst, _ => by simp at hfirst
  | _ :: _, [], _ :: _, _, hsecond => by simp at hsecond
  | _ :: _, _ :: _, [], hfirst, _ => by simp at hfirst

end

theorem Denotes.contains {arena : Arena} {tree : Tree} {handle : Handle}
    (hdenotes : arena.Denotes tree handle) : arena.contains handle = true := by
  cases tree with
  | node op width children =>
      obtain ⟨operands, hnode, -⟩ := hdenotes.node?
      exact contains_of_node? hnode

mutual

/-- While the nodes below a handle are kept, it denotes the same tree. -/
theorem Denotes.of_kept : ∀ {tree : Tree} {handle : Handle}, before.Denotes tree handle →
    (∀ other node, before.Below handle other → before.node? other = some node →
      after.node? other = some node) → after.Denotes tree handle
  | .node op width children, handle, hdenotes, hkept => by
      obtain ⟨operands, hnode, hchildren⟩ := hdenotes.node?
      refine denotes_node (hkept handle _ .here hnode) (hchildren.of_kept ?_)
      exact fun operand hmem other node hbelow =>
        hkept other node (.of_child hnode hmem hbelow)

theorem DenotesAll.of_kept : ∀ {trees : List Tree} {handles : List Handle},
    before.DenotesAll trees handles →
    (∀ handle ∈ handles, ∀ other node, before.Below handle other →
      before.node? other = some node → after.node? other = some node) →
    after.DenotesAll trees handles
  | [], [], _, _ => denotesAll_nil
  | tree :: trees, handle :: handles, hdenotes, hkept => by
      rw [denotesAll_cons] at hdenotes ⊢
      exact ⟨hdenotes.1.of_kept (hkept handle List.mem_cons_self),
        hdenotes.2.of_kept fun other hother => hkept other (List.mem_cons_of_mem _ hother)⟩
  | [], _ :: _, hdenotes, _ => by simp at hdenotes
  | _ :: _, [], hdenotes, _ => by simp at hdenotes

end

theorem Denotes.mono (hextends : Extends before after) {tree : Tree} {handle : Handle}
    (hdenotes : before.Denotes tree handle) : after.Denotes tree handle :=
  hdenotes.of_kept fun other node _ => hextends other node

/-- Nodes that are left with all that lies below them denote what they did. -/
theorem Denotes.of_extends (hextends : Extends after before) {handle : Handle} {tree : Tree}
    (hintact : after.Intact handle) (hdenotes : before.Denotes tree handle) :
    after.Denotes tree handle := by
  refine hdenotes.of_kept fun other node hbelow hnode => ?_
  obtain ⟨left, hleft⟩ := contains_iff.mp (hintact other ((hintact.below_iff hextends).mp hbelow))
  obtain rfl := Option.some.inj (hnode.symm.trans (hextends other left hleft))
  exact hleft

/-! ### The same expression in two arenas -/

/-- Handles of two arenas stand for the same expression. -/
def SameExpr (first second : Arena) (one other : Handle) : Prop :=
  ∃ tree, first.Denotes tree one ∧ second.Denotes tree other

variable {first second : Arena} {one other : Handle}

theorem SameExpr.symm (hsame : SameExpr first second one other) :
    SameExpr second first other one := by
  obtain ⟨tree, hone, hother⟩ := hsame
  exact ⟨tree, hother, hone⟩

theorem SameExpr.mono {first' second' : Arena} (hfirst : Extends first first')
    (hsecond : Extends second second') (hsame : SameExpr first second one other) :
    SameExpr first' second' one other := by
  obtain ⟨tree, hone, hother⟩ := hsame
  exact ⟨tree, hone.mono hfirst, hother.mono hsecond⟩

theorem contains_of_forall₂ {ones others : List Handle}
    (hsame : List.Forall₂ (SameExpr first second) ones others) :
    ∀ child ∈ ones, first.contains child = true := by
  intro child hmem
  obtain ⟨_, -, tree, hone, -⟩ := exists_of_forall₂ hsame hmem
  exact hone.contains

/-- Nodes with the same operation and width are the same expression if their children are. -/
theorem sameExpr_node {op : Op} {width : UInt32} {ones others : List Handle}
    (hone : first.node? one = some ⟨op, ones, width⟩)
    (hother : second.node? other = some ⟨op, others, width⟩)
    (hchildren : List.Forall₂ (SameExpr first second) ones others) :
    SameExpr first second one other := by
  -- one tree for each pair of children, and the same for both sides
  obtain ⟨trees, hones, hothers⟩ :
      ∃ trees, first.DenotesAll trees ones ∧ second.DenotesAll trees others := by
    clear hone hother
    induction hchildren with
    | nil => exact ⟨[], denotesAll_nil, denotesAll_nil⟩
    | cons hhead _ ih =>
        obtain ⟨tree, hone, hother⟩ := hhead
        obtain ⟨trees, hones, hothers⟩ := ih
        exact ⟨tree :: trees, denotesAll_cons.mpr ⟨hone, hones⟩,
          denotesAll_cons.mpr ⟨hother, hothers⟩⟩
  exact ⟨.node op width trees, denotes_node hone hones, denotes_node hother hothers⟩

/-- The same expression has the same width. -/
theorem SameExpr.exists_width (hsame : SameExpr first second one other) :
    ∃ node node', first.node? one = some node ∧ second.node? other = some node' ∧
      node.width = node'.width := by
  obtain ⟨⟨op, width, children⟩, hone, hother⟩ := hsame
  obtain ⟨ones, hnode, -⟩ := hone.node?
  obtain ⟨others, hnode', -⟩ := hother.node?
  exact ⟨_, _, hnode, hnode', rfl⟩

end Arena

end ExprHeap
