import ExprHeap.Proofs.Barrier
import Mathlib.Data.Prod.Lex
import Mathlib.Logic.Relation
import Mathlib.Order.WellFounded

/-!
# Shading turn by turn

Shading takes one handle after the other off its stack.  Here one such turn is a
relation (`Table.ShadingTurn`) that leaves open which handle of the stack is
taken and in which order the children of its entry are stacked.

No table, whatever its entries name, and no order of the turns keeps them going
forever (`Table.wellFounded_shadingTurn`): a turn leaves fewer entries that await
shading, or as many and a shorter stack.  And all orders come to the same end,
which is the table that `Table.shadeStack` gives (`Table.shadingEnds_iff`): what
it stamps is told by the handles on the stack (`Table.getElem?_shadeStack`), so
their order is of no account, and a turn does not change it.

For an arena, `Arena.shade_exact` collects what shading does and does not do.
-/

namespace ExprHeap

namespace Table

variable {table : Table} {epoch : Nat} {root : Handle} {stack : List Handle}

/-! ### Shading again -/

/-- A stack without unkept entries changes nothing. -/
theorem shadeStack_eq_self (hstack : ∀ handle ∈ stack, ∀ entry, ¬ table.Unkept epoch handle entry) :
    shadeStack epoch table stack = table := by
  apply Array.ext_getElem?
  intro position
  rw [getElem?_shadeStack, if_neg]
  rintro ⟨root, hroot, handle, -, hpath⟩
  obtain ⟨entry, hunkept⟩ := hpath.start_unkept
  exact hstack root hroot entry hunkept

/-- After shading, no handle of the stack names an unkept entry. -/
theorem not_unkept_shadeStack (hroot : root ∈ stack) (entry : Entry) :
    ¬ (shadeStack epoch table stack).Unkept epoch root entry := by
  rintro ⟨hentry, hawaits⟩
  rw [entryOf?_shadeStack] at hentry
  split at hentry
  · obtain ⟨before, -, rfl⟩ := Option.map_eq_some_iff.mp hentry
    simp [Entry.isKept] at hawaits
  · next hpath => exact hpath ⟨root, hroot, .here ⟨hentry, hawaits⟩⟩

/-! ### Turns -/

/-- The order of the stack makes no difference. -/
theorem shadeStack_perm {other : List Handle} (hperm : stack.Perm other) :
    shadeStack epoch table stack = shadeStack epoch table other := by
  have hreaches : ∀ position, table.Reaches epoch stack position ↔
      table.Reaches epoch other position :=
    fun _ => ⟨Reaches.mono hperm.subset, Reaches.mono hperm.symm.subset⟩
  apply Array.ext_getElem?
  intro position
  rw [getElem?_shadeStack, getElem?_shadeStack, hreaches]

/-- One turn of shading, from a table and a stack to the next ones. -/
inductive ShadingTurn (epoch : Nat) : Table × List Handle → Table × List Handle → Prop
  /-- A handle whose entry is missing or kept is dropped. -/
  | drop {table : Table} {stack rest : List Handle} {handle : Handle} :
      stack.Perm (handle :: rest) → (∀ entry, ¬ table.Unkept epoch handle entry) →
      ShadingTurn epoch (table, stack) (table, rest)
  /-- Another entry is stamped, and its children are put on the stack. -/
  | stamp {table : Table} {stack rest next : List Handle} {handle : Handle} {entry : Entry} :
      stack.Perm (handle :: rest) → table.Unkept epoch handle entry →
      next.Perm (entry.node.children ++ rest) →
      ShadingTurn epoch (table, stack) (table.stamp handle.index epoch, next)

variable {before after : Table × List Handle}

/-- What is left to do: the entries that await shading, and then the stack. -/
def shadingLeft (epoch : Nat) (state : Table × List Handle) : Nat × Nat :=
  (state.1.awaitingShading epoch, state.2.length)

theorem ShadingTurn.lt (hturn : ShadingTurn epoch before after) :
    Prod.Lex (· < ·) (· < ·) (shadingLeft epoch after) (shadingLeft epoch before) := by
  cases hturn with
  | drop hperm _ =>
      refine Prod.Lex.right _ ?_
      rw [hperm.length_eq, List.length_cons]
      exact Nat.lt_succ_self _
  | stamp _ hunkept _ => exact Prod.Lex.left _ _ (awaitingShading_stamp_lt hunkept.1 hunkept.2)

/-- **Turns do not go on forever.** -/
theorem wellFounded_shadingTurn (epoch : Nat) :
    WellFounded fun after before => ShadingTurn epoch before after :=
  Subrelation.wf ShadingTurn.lt
    (InvImage.wf (shadingLeft epoch) (WellFounded.prod_lex wellFounded_lt wellFounded_lt))

/-- While the stack is not empty there is a turn to take. -/
theorem exists_shadingTurn (table : Table) (hstack : stack ≠ []) :
    ∃ after, ShadingTurn epoch (table, stack) after := by
  obtain ⟨handle, rest, rfl⟩ := List.exists_cons_of_ne_nil hstack
  by_cases hunkept : ∃ entry, table.Unkept epoch handle entry
  · obtain ⟨entry, hunkept⟩ := hunkept
    exact ⟨_, .stamp (.refl _) hunkept (.refl _)⟩
  · exact ⟨_, .drop (.refl _) (not_exists.mp hunkept)⟩

/-- A turn leaves the table that shading will come to. -/
theorem ShadingTurn.shadeStack_eq (hturn : ShadingTurn epoch before after) :
    shadeStack epoch before.1 before.2 = shadeStack epoch after.1 after.2 := by
  cases hturn with
  | drop hperm hhandle => rw [shadeStack_perm hperm, shadeStack_cons_of_not_unkept hhandle]
  | stamp hperm hunkept hnext =>
      rw [shadeStack_perm hperm, shadeStack_cons_of_unkept hunkept, shadeStack_perm hnext]

theorem shadeStack_eq_of_turns (hturns : Relation.ReflTransGen (ShadingTurn epoch) before after) :
    shadeStack epoch before.1 before.2 = shadeStack epoch after.1 after.2 := by
  induction hturns with
  | refl => rfl
  | tail _ hturn ih => exact ih.trans hturn.shadeStack_eq

/-- Some turns empty the stack. -/
theorem shadingTurns_shadeStack (before : Table × List Handle) :
    Relation.ReflTransGen (ShadingTurn epoch) before (shadeStack epoch before.1 before.2, []) := by
  induction before using (wellFounded_shadingTurn epoch).induction with
  | _ before ih =>
      obtain ⟨table, stack⟩ := before
      cases stack with
      | nil => rw [shadeStack]
      | cons handle rest =>
          obtain ⟨after, hturn⟩ := exists_shadingTurn table (List.cons_ne_nil handle rest)
          rw [hturn.shadeStack_eq]
          exact .head hturn (ih after hturn)

/-- Turns lead from one state to another, where no turn is left to take. -/
def ShadingEnds (epoch : Nat) (before after : Table × List Handle) : Prop :=
  Relation.ReflTransGen (ShadingTurn epoch) before after ∧ ∀ next, ¬ ShadingTurn epoch after next

/-- **In whatever order the turns are taken, they end with an empty stack and the same table.** -/
theorem shadingEnds_iff :
    ShadingEnds epoch before after ↔ after = (shadeStack epoch before.1 before.2, []) := by
  constructor
  · rintro ⟨hturns, hend⟩
    obtain ⟨table, stack⟩ := after
    have hempty : stack = [] := by
      by_contra hstack
      obtain ⟨next, hturn⟩ := exists_shadingTurn table hstack
      exact hend next hturn
    subst hempty
    rw [shadeStack_eq_of_turns hturns, shadeStack]
  · rintro rfl
    refine ⟨shadingTurns_shadeStack before, fun next hturn => ?_⟩
    -- an empty stack offers no handle
    cases hturn with
    | drop hperm _ => exact List.cons_ne_nil _ _ hperm.nil_eq.symm
    | stamp hperm _ _ => exact List.cons_ne_nil _ _ hperm.nil_eq.symm

end Table

namespace Arena

variable {arena : Arena} {root : Handle}

/-! ### Shading an arena -/

theorem shade_of_active (hactive : arena.cycleActive = true) (root : Handle) :
    arena.shade root = { arena with table := arena.table.shadeStack arena.epoch [root] } :=
  if_pos hactive

theorem shade_of_idle (hidle : arena.cycleActive = false) (root : Handle) :
    arena.shade root = arena :=
  if_neg (by simp [hidle])

/-- Shading a second time changes nothing. -/
theorem shade_shade (arena : Arena) (root : Handle) :
    (arena.shade root).shade root = arena.shade root := by
  cases hactive : arena.cycleActive with
  | false => rw [shade_of_idle hactive, shade_of_idle hactive]
  | true =>
      have hagain : (arena.shade root).cycleActive = true := by rw [shade_cycleActive, hactive]
      -- what the first shading could reach it has stamped, so the second finds nothing to do
      have htable : (arena.shade root).table.shadeStack (arena.shade root).epoch [root] =
          (arena.shade root).table := by
        rw [shade_epoch, shade_of_active hactive]
        refine Table.shadeStack_eq_self fun handle hmem entry => ?_
        rw [List.mem_singleton.mp hmem]
        exact Table.not_unkept_shadeStack (List.mem_singleton_self root) entry
      rw [shade_of_active hagain, htable]

/-- Every child of a kept node is allocated and kept. -/
def KeepsChildren (arena : Arena) : Prop :=
  ∀ parent child node, arena.Kept parent → arena.node? parent = some node →
    child ∈ node.children → arena.Kept child

theorem KeepsChildren.barrierClosed (hkeeps : arena.KeepsChildren) : arena.BarrierClosed :=
  fun parent child node hparent hnode hmem _ => hkeeps parent child node hparent hnode hmem

/-- Where kept nodes keep their children, shading an intact node keeps all that lies below it,
provided that a cycle is active; otherwise the node must have been kept before. -/
theorem KeepsChildren.kept_below_shade_iff (hkeeps : arena.KeepsChildren)
    (hintact : arena.Intact root) :
    (∀ handle, arena.Below root handle → (arena.shade root).Kept handle) ↔
      arena.cycleActive = true ∨ arena.Kept root := by
  constructor
  · intro hbelow
    cases hactive : arena.cycleActive with
    | false =>
        have hroot := hbelow root .here
        rw [shade_of_idle hactive] at hroot
        exact .inr hroot
    | true => exact .inl rfl
  · rintro (hactive | hroot) handle hbelow
    · exact (hkeeps.barrierClosed.kept_shade_iff hactive).mpr
        (.inr ⟨hbelow, hintact handle hbelow⟩)
    · exact (hkeeps.barrierClosed.kept_of_below hroot hbelow (hintact handle hbelow)).shade root

open Classical in
/-- **What shading does**, in every arena and from every root, also where children are gone, are
shared or name their own parents.  Its turns end, and always with the same table.  Without an
active cycle nothing changes.  In a cycle the stamp of shading changes, and nothing else, and it
changes in those slots to whose entries a path of unkept entries leads from the root.  Shading the
root again changes nothing.  Where kept nodes keep their children and nothing below the root is
gone, everything below it is kept afterwards, if only a cycle is active. -/
theorem shade_exact (arena : Arena) (root : Handle) :
    (WellFounded fun after before => Table.ShadingTurn arena.epoch before after) ∧
      (arena.cycleActive = false → arena.shade root = arena) ∧
      (arena.cycleActive = true →
        (∀ state, Table.ShadingEnds arena.epoch (arena.table, [root]) state ↔
          state = ((arena.shade root).table, [])) ∧
        arena.shade root = { arena with table := (arena.shade root).table } ∧
        ∀ position, (arena.shade root).table[position]? =
          if ∃ handle : Handle, handle.index.toNat = position ∧
              arena.table.UnkeptPath arena.epoch root handle then
            arena.table[position]?.map (·.stamped arena.epoch)
          else arena.table[position]?) ∧
      (arena.shade root).shade root = arena.shade root ∧
      (arena.KeepsChildren → arena.Intact root →
        ((∀ handle, arena.Below root handle → (arena.shade root).Kept handle) ↔
          arena.cycleActive = true ∨ arena.Kept root)) := by
  refine ⟨Table.wellFounded_shadingTurn _, fun hidle => shade_of_idle hidle root, fun hactive => ?_,
    shade_shade arena root, fun hkeeps hintact => hkeeps.kept_below_shade_iff hintact⟩
  rw [shade_of_active hactive]
  refine ⟨fun state => Table.shadingEnds_iff, rfl, fun position => ?_⟩
  rw [Table.getElem?_shadeStack]
  simp only [Table.Reaches, List.mem_singleton, exists_eq_left]

/-- Two nodes that are each other's children, the second one twice over, and a node apart from
them, in the first cycle. -/
def looped : Arena :=
  { Arena.empty 3 with
    table := #[
      { generation := 1, entry := some ⟨⟨.unary .neg, [⟨1, 1⟩], 8⟩, 0, 0⟩ },
      { generation := 1, entry := some ⟨⟨.binary .add, [⟨0, 1⟩, ⟨0, 1⟩], 8⟩, 0, 0⟩ },
      { generation := 1, entry := some ⟨⟨.input 0, [], 8⟩, 0, 0⟩ }]
    size := 3
    epoch := 1
    cycleActive := true }

theorem below_looped {handle : Handle} (hbelow : looped.Below ⟨0, 1⟩ handle) :
    handle = ⟨0, 1⟩ ∨ handle = ⟨1, 1⟩ := by
  have hfirst : looped.node? ⟨0, 1⟩ = some ⟨.unary .neg, [⟨1, 1⟩], 8⟩ := rfl
  have hsecond : looped.node? ⟨1, 1⟩ = some ⟨.binary .add, [⟨0, 1⟩, ⟨0, 1⟩], 8⟩ := rfl
  induction hbelow with
  | here => exact .inl rfl
  | child _ hnode hmem ih =>
      rcases ih with rfl | rfl
      · obtain rfl := Option.some.inj (hfirst.symm.trans hnode)
        exact .inr (List.mem_singleton.mp hmem)
      · obtain rfl := Option.some.inj (hsecond.symm.trans hnode)
        simp only [List.mem_cons, List.not_mem_nil, or_false, or_self] at hmem
        exact .inl hmem

/-- Shading one of the two nodes keeps both and leaves the third as it is. -/
theorem looped_exact :
    looped.cycleActive = true ∧ looped.KeepsChildren ∧ looped.Intact ⟨0, 1⟩ ∧
      (looped.shade ⟨0, 1⟩).Kept ⟨0, 1⟩ ∧ (looped.shade ⟨0, 1⟩).Kept ⟨1, 1⟩ ∧
      (looped.shade ⟨0, 1⟩).table[2]? = looped.table[2]? := by
  have hkeeps : looped.KeepsChildren := by
    -- no entry has been kept yet
    rintro parent child node ⟨entry, hentry, hkept⟩
    have hslot := Array.mem_of_getElem? (Table.entryOf?_eq_some_iff.mp hentry)
    simp only [looped, List.mem_toArray, List.mem_cons, List.not_mem_nil, or_false, Slot.mk.injEq,
      Option.some.injEq] at hslot
    rcases hslot with ⟨-, rfl⟩ | ⟨-, rfl⟩ | ⟨-, rfl⟩ <;> exact absurd hkept (by decide)
  have hintact : looped.Intact ⟨0, 1⟩ := by
    intro handle hbelow
    rcases below_looped hbelow with rfl | rfl <;> rfl
  obtain ⟨-, -, hactive, -, hkept⟩ := shade_exact looped ⟨0, 1⟩
  have hall := (hkept hkeeps hintact).mpr (.inl rfl)
  have hchild : looped.Below ⟨0, 1⟩ ⟨1, 1⟩ := .child .here rfl (List.mem_singleton_self _)
  refine ⟨rfl, hkeeps, hintact, hall _ .here, hall _ hchild, ?_⟩
  -- the third slot lies on no path from the root
  rw [(hactive rfl).2.2 2, if_neg]
  rintro ⟨handle, hposition, hpath⟩
  rcases below_looped (below_of_unkeptPath hpath) with rfl | rfl
  · exact absurd hposition (by decide)
  · exact absurd hposition (by decide)

end Arena

end ExprHeap
