import ExprHeap.Mark.Marking
import ExprHeap.Proofs.Coherence

/-!
# Marking finds exactly what lies below the roots

The marker keeps its handles twice, as a list in the order of marking and as a
table of generations.  `Marking.Valid` says that the two agree and that every
handle found names a node; in a coherent arena two such handles with the same
index are equal, so that no slot is ever marked in two generations.

`Marking.Closing` is the invariant of the cursor: everything found lies below
some root, every root is found, and so are the children of all nodes that the
cursor has passed.  One visit keeps it (`Closing.visit`), hence a burst
(`Closing.expand`), hence the whole loop.  When the cursor has passed everything
found, the handles found are closed under children and so are exactly those
below the roots: `Closing.close`.

No fault arises as long as the roots are intact.
-/

namespace ExprHeap

/-! ## The live set -/

namespace LiveSet

variable {live : LiveSet} {handle : Handle}

theorem contains_iff (hgeneration : handle.generation ≠ 0) :
    live.contains handle = true ↔
      live.generationAt handle.index.toNat = handle.generation := by
  unfold contains generationAt
  rw [beq_iff_eq]
  cases live.generations[handle.index.toNat]? with
  | none => simpa using hgeneration.symm
  | some generation => simp

/-- Inserting a handle whose index has not been seen. -/
theorem insert_of_unseen (hgeneration : handle.generation ≠ 0)
    (hunseen : live.generationAt handle.index.toNat = 0) :
    ∃ after, live.insert handle = .ok (true, after) ∧ after.size = live.size + 1 ∧
      ∀ index, after.generationAt index =
        if handle.index.toNat = index then handle.generation else live.generationAt index := by
  unfold insert
  dsimp only
  rw [hunseen, if_neg hgeneration.symm, if_neg (not_not_intro rfl)]
  exact ⟨_, rfl, rfl, fun index => Marking.generationAt_set live handle index _⟩

/-- Inserting a member. -/
theorem insert_of_seen (hseen : live.generationAt handle.index.toNat = handle.generation) :
    ∃ after, live.insert handle = .ok (false, after) ∧ after.size = live.size ∧
      ∀ index, after.generationAt index = live.generationAt index := by
  unfold insert
  dsimp only
  rw [if_pos hseen]
  exact ⟨_, rfl, rfl, fun index => Marking.generationAt_reaching live _ index _⟩

end LiveSet

namespace Marking

variable {arena : Arena} {issued : Nat} {marking : Marking}

/-! ## The list and the table of what is marked -/

/-- The two records of what is marked agree, and name nodes only. -/
structure Valid (arena : Arena) (marking : Marking) : Prop where
  allocated : ∀ handle ∈ marking.found, arena.contains handle = true
  generationAt_iff : ∀ (index : Nat) (generation : UInt32), generation ≠ 0 →
    (marking.live.generationAt index = generation ↔
      ∃ handle ∈ marking.found, handle.index.toNat = index ∧ handle.generation = generation)
  nodup : marking.found.toList.Nodup
  size_eq : marking.live.size = marking.found.size

theorem valid_empty (arena : Arena) : Marking.empty.Valid arena where
  allocated := by simp [Marking.empty]
  generationAt_iff index generation hgeneration := by
    simpa [Marking.empty, LiveSet.empty, LiveSet.generationAt] using hgeneration.symm
  nodup := by simp [Marking.empty]
  size_eq := rfl

theorem generation_ne_zero_of_contains (hcoherent : arena.Coherent issued) {handle : Handle}
    (hcontains : arena.contains handle = true) : handle.generation ≠ 0 := by
  obtain ⟨entry, hentry⟩ := Option.isSome_iff_exists.mp hcontains
  exact hcoherent.handle_generation_ne_zero hentry

/-- Among allocated handles the index tells which one it is. -/
theorem eq_of_index_eq {first second : Handle} (hfirst : arena.contains first = true)
    (hsecond : arena.contains second = true) (hindex : first.index.toNat = second.index.toNat) :
    first = second := by
  obtain ⟨one, hone⟩ := Option.isSome_iff_exists.mp hfirst
  obtain ⟨other, hother⟩ := Option.isSome_iff_exists.mp hsecond
  exact Table.entryOf?_index_injective hone hother (UInt32.toNat_inj.mp hindex)

theorem Valid.contains_iff (hvalid : marking.Valid arena) {handle : Handle}
    (hgeneration : handle.generation ≠ 0) :
    marking.live.contains handle = true ↔ handle ∈ marking.found := by
  rw [LiveSet.contains_iff hgeneration, hvalid.generationAt_iff _ _ hgeneration]
  constructor
  · rintro ⟨other, hother, hindex, hsame⟩
    exact Handle.ext_toNat hindex hsame ▸ hother
  · exact fun hmem => ⟨handle, hmem, rfl, rfl⟩

/-- The two records still agree when a handle that is not marked is added to both. -/
theorem Valid.push (hvalid : marking.Valid arena) {handle : Handle} {live : LiveSet}
    (hcontains : arena.contains handle = true) (hfound : handle ∉ marking.found)
    (hsize : live.size = marking.live.size + 1)
    (hset : ∀ index, live.generationAt index =
      if handle.index.toNat = index then handle.generation
      else marking.live.generationAt index) :
    Valid arena { live := live, found := marking.found.push handle } where
  allocated other hother := by
    rcases Array.mem_push.mp hother with hother | rfl
    · exact hvalid.allocated other hother
    · exact hcontains
  generationAt_iff index generation hgeneration := by
    simp only [hset, Array.mem_push, or_and_right, exists_or, exists_eq_left]
    by_cases hindex : handle.index.toNat = index
    · subst hindex
      rw [if_pos rfl]
      refine ⟨fun heq => .inr ⟨rfl, heq⟩, ?_⟩
      rintro (⟨other, hother, hsame, -⟩ | ⟨-, heq⟩)
      · -- another handle with this index would be the same one
        exact absurd (eq_of_index_eq (hvalid.allocated other hother) hcontains hsame ▸ hother)
          hfound
      · exact heq
    · rw [if_neg hindex, hvalid.generationAt_iff _ _ hgeneration]
      simp [hindex]
  nodup := by
    rw [Array.toList_push, List.nodup_append]
    refine ⟨hvalid.nodup, List.nodup_singleton _, ?_⟩
    rintro other hother _ hlast rfl
    rw [List.mem_singleton] at hlast
    exact hfound (hlast ▸ Array.mem_toList_iff.mp hother)
  size_eq := by simp [hsize, hvalid.size_eq]

/-- Marking an allocated handle succeeds, and puts it at the end of the list if it is new. -/
theorem Valid.mark (hcoherent : arena.Coherent issued) (hvalid : marking.Valid arena)
    {handle : Handle} (hcontains : arena.contains handle = true) :
    ∃ after, marking.mark handle = .ok (decide (handle ∉ marking.found), after) ∧
      after.Valid arena ∧
      after.found.toList =
        marking.found.toList ++ if handle ∈ marking.found then [] else [handle] := by
  have hgeneration := generation_ne_zero_of_contains hcoherent hcontains
  by_cases hfound : handle ∈ marking.found
  · have hseen := (hvalid.generationAt_iff _ _ hgeneration).mpr ⟨handle, hfound, rfl, rfl⟩
    obtain ⟨live, hinsert, hsize, hsame⟩ := LiveSet.insert_of_seen hseen
    refine ⟨{ marking with live := live }, ?_, ?_, by simp [hfound]⟩
    · simp only [Marking.mark, hinsert]
      simp [hfound]
    · exact
        { allocated := hvalid.allocated
          generationAt_iff := fun index generation h => by
            rw [hsame]
            exact hvalid.generationAt_iff index generation h
          nodup := hvalid.nodup
          size_eq := hsize.trans hvalid.size_eq }
  · -- a known generation would be that of an allocated handle with the same index
    have hunseen : marking.live.generationAt handle.index.toNat = 0 := by
      by_contra hknown
      obtain ⟨other, hother, hindex, -⟩ := (hvalid.generationAt_iff _ _ hknown).mp rfl
      exact hfound (eq_of_index_eq (hvalid.allocated other hother) hcontains hindex ▸ hother)
    obtain ⟨live, hinsert, hsize, hset⟩ := LiveSet.insert_of_unseen hgeneration hunseen
    refine ⟨{ live := live, found := marking.found.push handle }, ?_,
      hvalid.push hcontains hfound hsize hset, by simp [hfound]⟩
    simp only [Marking.mark, hinsert]
    simp [hfound]

/-- Marking allocated handles succeeds, and adds the new ones at the end of the list. -/
theorem Valid.markAll (hcoherent : arena.Coherent issued) {handles : List Handle}
    (hvalid : marking.Valid arena)
    (hcontains : ∀ handle ∈ handles, arena.contains handle = true) :
    ∃ after added, marking.markAll handles = .ok after ∧ after.Valid arena ∧
      after.found.toList = marking.found.toList ++ added ∧
      ∀ handle, handle ∈ after.found ↔ handle ∈ marking.found ∨ handle ∈ handles := by
  induction handles generalizing marking with
  | nil => exact ⟨marking, [], rfl, hvalid, by simp, by simp⟩
  | cons head rest ih =>
      obtain ⟨middle, hmark, hmiddle, hlist⟩ := hvalid.mark hcoherent
        (hcontains head List.mem_cons_self)
      obtain ⟨after, added, hmarkAll, hafter, hadded, hfound⟩ :=
        ih hmiddle fun handle hmem => hcontains handle (List.mem_cons_of_mem _ hmem)
      refine ⟨after, (if head ∈ marking.found then [] else [head]) ++ added, ?_, hafter, ?_, ?_⟩
      · simp only [Marking.markAll, hmark, hmarkAll]
      · rw [hadded, hlist, List.append_assoc]
      · intro handle
        -- the head goes onto the list if it is not there yet, so it is there in either case
        have hmid : handle ∈ middle.found ↔ handle ∈ marking.found ∨ handle = head := by
          rw [← Array.mem_toList_iff, hlist, List.mem_append, Array.mem_toList_iff]
          split <;> simp_all
        rw [hfound, hmid, List.mem_cons, or_assoc]

/-! ## The cursor -/

/-- The state of the marker whose cursor has passed the first `cursor` handles found. -/
structure Closing (arena : Arena) (roots : Handle → Prop) (cursor : Nat) (marking : Marking) :
    Prop where
  valid : marking.Valid arena
  root_found : ∀ root, roots root → root ∈ marking.found
  found_below : ∀ handle ∈ marking.found, ∃ root, roots root ∧ arena.Below root handle
  passed : ∀ (position : Nat) (parent : Handle) (node : Node), position < cursor →
    marking.found.toList[position]? = some parent → arena.node? parent = some node →
    ∀ child ∈ node.children, child ∈ marking.found

variable {roots : Handle → Prop} {cursor : Nat}

theorem Closing.intact (hclosing : marking.Closing arena roots cursor)
    (hintact : ∀ root, roots root → arena.Intact root) {handle : Handle}
    (hfound : handle ∈ marking.found) : arena.Intact handle := by
  obtain ⟨root, hroot, hbelow⟩ := hclosing.found_below handle hfound
  exact (hintact root hroot).below hbelow

/-- Visiting the node at the cursor marks its children and moves the cursor past it. -/
theorem Closing.visit (hcoherent : arena.Coherent issued)
    (hintact : ∀ root, roots root → arena.Intact root)
    (hclosing : marking.Closing arena roots cursor) {parent : Handle}
    (hparent : marking.found[cursor]? = some parent) :
    ∃ node after, arena.node? parent = some node ∧ marking.markAll node.children = .ok after ∧
      after.Closing arena roots (cursor + 1) := by
  have hfound : parent ∈ marking.found := Array.mem_of_getElem? hparent
  have hparentIntact := hclosing.intact hintact hfound
  obtain ⟨node, hnode⟩ := Arena.contains_iff.mp hparentIntact.contains
  -- whatever is found lies below a root, and a root with all below it is allocated
  obtain ⟨after, added, hmarkAll, hvalid, hlist, hmem⟩ := hclosing.valid.markAll hcoherent
    (fun child hchild => (hparentIntact.child hnode hchild).contains)
  refine ⟨node, after, hnode, hmarkAll,
    { valid := hvalid
      root_found := fun root hroot => (hmem root).mpr (.inl (hclosing.root_found root hroot))
      found_below := ?_
      passed := ?_ }⟩
  · intro handle hhandle
    rcases (hmem handle).mp hhandle with hold | hchild
    · exact hclosing.found_below handle hold
    · obtain ⟨root, hroot, hbelow⟩ := hclosing.found_below parent hfound
      exact ⟨root, hroot, .child hbelow hnode hchild⟩
  · intro position other otherNode hposition hother hotherNode child hchild
    -- marking only appends, so the positions passed so far hold the same handles
    have hcursor : cursor < marking.found.toList.length := by
      simpa using (Array.getElem?_eq_some_iff.mp hparent).1
    rw [hlist, List.getElem?_append_left (Nat.lt_of_le_of_lt (Nat.le_of_lt_succ hposition) hcursor)]
      at hother
    rcases Nat.lt_succ_iff_lt_or_eq.mp hposition with hlt | rfl
    · exact (hmem child).mpr
        (.inl (hclosing.passed position other otherNode hlt hother hotherNode child hchild))
    · rw [Array.getElem?_toList, hparent] at hother
      obtain rfl := Option.some.inj hother
      obtain rfl := Option.some.inj (hnode.symm.trans hotherNode)
      exact (hmem child).mpr (.inr hchild)

/-- A burst of visits succeeds. -/
theorem Closing.expand (hcoherent : arena.Coherent issued)
    (hintact : ∀ root, roots root → arena.Intact root) (burst : Nat)
    (hclosing : marking.Closing arena roots cursor) :
    ∃ stop after, expand arena burst cursor marking = .ok (stop, after) ∧
      after.Closing arena roots stop := by
  induction burst generalizing cursor marking with
  | zero => exact ⟨cursor, marking, rfl, hclosing⟩
  | succ burst ih =>
      cases hparent : marking.found[cursor]? with
      | none => exact ⟨cursor, marking, by simp only [Marking.expand, hparent], hclosing⟩
      | some parent =>
          obtain ⟨node, middle, hnode, hmarkAll, hmiddle⟩ :=
            hclosing.visit hcoherent hintact hparent
          obtain ⟨stop, after, hexpand, hafter⟩ := ih hmiddle
          refine ⟨stop, after, ?_, hafter⟩
          simp only [Marking.expand, hparent, hnode, hmarkAll, hexpand]

/-- When the cursor has passed everything found, what is found is what lies below the roots. -/
theorem Closing.found_iff (hclosing : marking.Closing arena roots cursor)
    (hend : marking.found.size ≤ cursor) (handle : Handle) :
    handle ∈ marking.found ↔ ∃ root, roots root ∧ arena.Below root handle := by
  refine ⟨hclosing.found_below handle, ?_⟩
  rintro ⟨root, hroot, hbelow⟩
  -- at the end every position has been passed, so the found handles are closed under children
  induction hbelow with
  | here => exact hclosing.root_found root hroot
  | @child parent child node _ hnode hmem ih =>
      obtain ⟨position, hposition⟩ := Array.mem_iff_getElem?.mp ih
      have hlt := (Array.getElem?_eq_some_iff.mp hposition).1
      rw [← Array.getElem?_toList] at hposition
      exact hclosing.passed position parent node (Nat.lt_of_lt_of_le hlt hend) hposition hnode
        child hmem

theorem close_of_passed {chunk : Nat} (hend : marking.found.size ≤ cursor) :
    marking.close arena chunk cursor = .ok marking := by
  rw [Marking.close, dif_neg (Nat.not_lt.mpr hend)]

theorem close_of_expand {chunk next : Nat} {between result : Marking}
    (hcursor : cursor < marking.found.size)
    (hexpand : expand arena (max chunk 1) cursor marking = .ok (next, between))
    (hrest : between.close arena chunk next = .ok result) :
    marking.close arena chunk cursor = .ok result := by
  rw [Marking.close, dif_pos hcursor]
  split
  · rename_i hother
    obtain ⟨rfl, rfl⟩ := Prod.mk.inj (Except.ok.inj (hexpand.symm.trans hother))
    exact hrest
  · rename_i hother
    cases hexpand.symm.trans hother

/-- **From intact roots, marking finds exactly what lies below them.** -/
theorem Closing.close (hcoherent : arena.Coherent issued)
    (hintact : ∀ root, roots root → arena.Intact root) (chunk : Nat)
    (hclosing : marking.Closing arena roots cursor) :
    ∃ result, marking.close arena chunk cursor = .ok result ∧ result.Valid arena ∧
      ∀ handle, handle ∈ result.found ↔ ∃ root, roots root ∧ arena.Below root handle := by
  fun_induction Marking.close marking arena chunk cursor with
  | case1 marking cursor hcursor next middle hexpand ih =>
      obtain ⟨stop, after, hexpand', hafter⟩ := hclosing.expand hcoherent hintact (max chunk 1)
      rw [hexpand, Except.ok.injEq, Prod.mk.injEq] at hexpand'
      obtain ⟨rfl, rfl⟩ := hexpand'
      exact ih hafter
  | case2 marking cursor hcursor fault hexpand =>
      -- no burst fails
      obtain ⟨stop, after, hexpand', -⟩ := hclosing.expand hcoherent hintact (max chunk 1)
      rw [hexpand] at hexpand'
      cases hexpand'
  | case3 marking cursor hcursor =>
      exact ⟨marking, rfl, hclosing.valid, hclosing.found_iff (Nat.le_of_not_lt hcursor)⟩

end Marking

end ExprHeap
