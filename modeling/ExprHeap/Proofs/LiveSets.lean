import ExprHeap.Proofs.Marking

/-!
# The table of a live set

A live set is a table of generations.  Two things can be wrong with such a table without any member
being wrong: it can go on with holes after its last member, and it can be longer than there are
indices, so that two of its places stand for the same slot.  A table that is *trimmed* has neither
fault, and inserting handles into the empty set only ever gives trimmed ones
(`LiveSet.Trimmed.insert`).

Of a trimmed table the list of the members is faithful: it has every member once, in the order of
the indices (`LiveSet.Trimmed.mem_toList_iff`, `LiveSet.Trimmed.pairwise_toList`).  And there is no
more to it than its members (`LiveSet.Trimmed.eq_of_mem_iff`).
-/

namespace ExprHeap

namespace LiveSet

variable {live other after : LiveSet} {handle : Handle} {index : Nat}

/-! ### Looking into the table -/

theorem generationAt_of_size_le (hsize : live.generations.size ≤ index) :
    live.generationAt index = 0 := by
  rw [generationAt, Array.getElem?_eq_none hsize, Option.getD_none]

theorem lt_size_of_generationAt_ne_zero (hseen : live.generationAt index ≠ 0) :
    index < live.generations.size := by
  by_contra hsize
  exact hseen (generationAt_of_size_le (Nat.le_of_not_lt hsize))

theorem getElem?_of_generationAt_ne_zero (hseen : live.generationAt index ≠ 0) :
    live.generations[index]? = some (live.generationAt index) := by
  have hindex := lt_size_of_generationAt_ne_zero hseen
  rw [generationAt, Array.getElem?_eq_getElem hindex, Option.getD_some]

/-- A table that holds an index already need not grow. -/
theorem reaching_of_lt {generations : Array UInt32} (hindex : index < generations.size) :
    reaching generations index = generations := by
  rw [reaching, Nat.sub_eq_zero_of_le hindex, Array.replicate_zero, Array.append_empty]

theorem size_reaching (generations : Array UInt32) (index : Nat) :
    (reaching generations index).size = max generations.size (index + 1) := by
  rw [reaching, Array.size_append, Array.size_replicate]
  omega

/-- A handle is inserted where it is a member, and there changes nothing, or where its slot has not
been seen. -/
theorem insert_cases {isNew : Bool} (hgeneration : handle.generation ≠ 0)
    (hinsert : live.insert handle = .ok (isNew, after)) :
    isNew = false ∧ live.generationAt handle.index.toNat = handle.generation ∧ after = live ∨
      isNew = true ∧ live.generationAt handle.index.toNat = 0 ∧
        after = {
          generations := (reaching live.generations handle.index.toNat).setIfInBounds
            handle.index.toNat handle.generation
          size := live.size + 1 } := by
  unfold insert at hinsert
  by_cases hknown : live.generationAt handle.index.toNat = handle.generation
  · have hindex : handle.index.toNat < live.generations.size :=
      lt_size_of_generationAt_ne_zero (hknown ▸ hgeneration)
    simp only [hknown, if_true, reaching_of_lt hindex, Except.ok.injEq, Prod.mk.injEq] at hinsert
    exact .inl ⟨hinsert.1.symm, hknown, hinsert.2.symm⟩
  · by_cases hunseen : live.generationAt handle.index.toNat = 0
    · simp only [hunseen, hgeneration.symm, ne_eq, not_true, if_false, Except.ok.injEq,
        Prod.mk.injEq] at hinsert
      exact .inr ⟨hinsert.1.symm, hunseen, hinsert.2.symm⟩
    · simp [hknown, hunseen] at hinsert

/-! ### Trimmed tables -/

/-- No two places stand for the same slot, and the last place is that of a member. -/
structure Trimmed (live : LiveSet) : Prop where
  size_le : live.generations.size ≤ Handle.indexBound
  last : ∀ index, live.generations.size = index + 1 → live.generationAt index ≠ 0

theorem trimmed_empty : empty.Trimmed where
  size_le := Nat.zero_le _
  last _ hsize := nomatch hsize

theorem Trimmed.insert {isNew : Bool} (htrimmed : live.Trimmed)
    (hgeneration : handle.generation ≠ 0) (hinsert : live.insert handle = .ok (isNew, after)) :
    after.Trimmed := by
  rcases insert_cases hgeneration hinsert with ⟨-, -, rfl⟩ | ⟨-, -, rfl⟩
  · exact htrimmed
  have hindex : handle.index.toNat < Handle.indexBound := handle.index.toNat_lt
  constructor
  · rw [Array.size_setIfInBounds, size_reaching]
    exact Nat.max_le.mpr ⟨htrimmed.size_le, hindex⟩
  · intro index hsize
    rw [Array.size_setIfInBounds, size_reaching] at hsize
    rw [Marking.generationAt_set]
    split
    · exact hgeneration
    · -- the table has not grown, so its last place is the one it had
      exact htrimmed.last index (by omega)

/-- Trimmed tables with the same generations are the same. -/
theorem Trimmed.generations_eq (htrimmed : live.Trimmed) (hother : other.Trimmed)
    (hsame : ∀ index, live.generationAt index = other.generationAt index) :
    live.generations = other.generations := by
  -- the last place of a trimmed table is taken, so no table is longer than another with its entries
  have hle : ∀ {one two : LiveSet}, one.Trimmed →
      (∀ index, one.generationAt index = two.generationAt index) →
      one.generations.size ≤ two.generations.size := by
    intro one two htrim heq
    cases hsize : one.generations.size with
    | zero => exact Nat.zero_le _
    | succ index => exact lt_size_of_generationAt_ne_zero (heq index ▸ htrim.last index hsize)
  refine Array.ext (Nat.le_antisymm (hle htrimmed hsame) (hle hother fun i => (hsame i).symm)) ?_
  intro index hlive hsize
  have hat := hsame index
  rwa [generationAt, generationAt, Array.getElem?_eq_getElem hlive,
    Array.getElem?_eq_getElem hsize] at hat

/-! ### The list of the members -/

theorem Trimmed.mem_toList_iff (htrimmed : live.Trimmed) : handle ∈ live.toList ↔
    handle.generation ≠ 0 ∧ live.generationAt handle.index.toNat = handle.generation := by
  rw [toList, List.mem_filterMap]
  constructor
  · rintro ⟨⟨generation, index⟩, hzip, hhandle⟩
    have hlookup := List.mem_zipIdx_iff_getElem?.mp hzip
    rw [Array.getElem?_toList] at hlookup
    -- the table has no more places than there are indices, so none is cut off
    have hindex : index < UInt32.size :=
      Nat.lt_of_lt_of_le (Array.getElem?_eq_some_iff.mp hlookup).1 htrimmed.size_le
    dsimp only at hhandle
    by_cases hzero : generation = 0
    · simp [hzero] at hhandle
    · rw [if_neg hzero, Option.some.injEq] at hhandle
      subst hhandle
      exact ⟨hzero, by rw [UInt32.toNat_ofNat_of_lt' hindex, generationAt, hlookup,
        Option.getD_some]⟩
  · rintro ⟨hgeneration, hat⟩
    have hlookup := getElem?_of_generationAt_ne_zero (hat ▸ hgeneration)
    refine ⟨(handle.generation, handle.index.toNat), ?_, ?_⟩
    · rw [List.mem_zipIdx_iff_getElem?, Array.getElem?_toList, hlookup, hat]
    · dsimp only
      rw [if_neg hgeneration, UInt32.ofNat_toNat]

/-- The members are listed in the order of their indices. -/
theorem Trimmed.pairwise_toList (htrimmed : live.Trimmed) :
    live.toList.Pairwise fun first second => first.index.toNat < second.index.toNat := by
  have hzip : live.generations.toList.zipIdx.Pairwise fun first second =>
      first.2 < second.2 ∧ second.2 < UInt32.size := by
    rw [List.pairwise_iff_getElem]
    intro first second hfirst hsecond hlt
    have hsize : second < live.generations.size := by simpa using hsecond
    simpa using ⟨hlt, Nat.lt_of_lt_of_le hsize htrimmed.size_le⟩
  refine hzip.filterMap _ ?_
  rintro ⟨_, one⟩ ⟨_, two⟩ ⟨hlt, htwo⟩ first hfirst second hsecond
  dsimp only at hlt htwo hfirst hsecond
  split at hfirst <;> cases hfirst
  split at hsecond <;> cases hsecond
  rw [UInt32.toNat_ofNat_of_lt' (Nat.lt_trans hlt htwo), UInt32.toNat_ofNat_of_lt' htwo]
  exact hlt

theorem Trimmed.nodup_toList (htrimmed : live.Trimmed) : live.toList.Nodup := by
  refine htrimmed.pairwise_toList.imp ?_
  rintro first _ hlt rfl
  exact Nat.lt_irrefl _ hlt

/-- A table that has the members of another has its generations, where it has any. -/
theorem Trimmed.generationAt_eq_of_subset (htrimmed : live.Trimmed) (hother : other.Trimmed)
    (hmem : ∀ handle ∈ live.toList, handle ∈ other.toList) (hseen : live.generationAt index ≠ 0) :
    other.generationAt index = live.generationAt index := by
  have hindex : index < UInt32.size :=
    Nat.lt_of_lt_of_le (lt_size_of_generationAt_ne_zero hseen) htrimmed.size_le
  have hfits : (UInt32.ofNat index).toNat = index := UInt32.toNat_ofNat_of_lt' hindex
  have hmember : (⟨UInt32.ofNat index, live.generationAt index⟩ : Handle) ∈ live.toList :=
    htrimmed.mem_toList_iff.mpr ⟨hseen, by rw [hfits]⟩
  have hat := (hother.mem_toList_iff.mp (hmem _ hmember)).2
  rwa [hfits] at hat

/-- **A trimmed set is told by its members.** -/
theorem Trimmed.eq_of_mem_iff (htrimmed : live.Trimmed) (hother : other.Trimmed)
    (hmem : ∀ handle, handle ∈ live.toList ↔ handle ∈ other.toList)
    (hsize : live.size = other.size) : live = other := by
  have hsame : ∀ index, live.generationAt index = other.generationAt index := by
    intro index
    by_cases hseen : live.generationAt index = 0
    · -- a place that is taken in the other set only would name a member that this set does not list
      by_contra hne
      have hback := hother.generationAt_eq_of_subset htrimmed (fun handle => (hmem handle).mpr)
        fun hzero => hne (hseen.trans hzero.symm)
      exact hne hback
    · exact (htrimmed.generationAt_eq_of_subset hother (fun handle => (hmem handle).mp) hseen).symm
  have hgenerations := htrimmed.generations_eq hother hsame
  cases live
  cases other
  simp_all

end LiveSet

/-! ### Marking keeps the table trimmed -/

namespace Marking

variable {arena : Arena} {issued : Nat} {marking after : Marking}

theorem insert_of_mark {handle : Handle} {isNew : Bool}
    (hmark : marking.mark handle = .ok (isNew, after)) :
    marking.live.insert handle = .ok (isNew, after.live) := by
  unfold mark at hmark
  split at hmark <;> cases hmark <;> assumption

theorem mark_trimmed {handle : Handle} {isNew : Bool} (hgeneration : handle.generation ≠ 0)
    (hmark : marking.mark handle = .ok (isNew, after)) (htrimmed : marking.live.Trimmed) :
    after.live.Trimmed :=
  htrimmed.insert hgeneration (insert_of_mark hmark)

theorem markAll_trimmed {handles : List Handle}
    (hgeneration : ∀ handle ∈ handles, handle.generation ≠ 0)
    (hmark : marking.markAll handles = .ok after) (htrimmed : marking.live.Trimmed) :
    after.live.Trimmed := by
  induction handles generalizing marking with
  | nil =>
      cases hmark
      exact htrimmed
  | cons head rest ih =>
      rw [markAll] at hmark
      split at hmark
      · next middle hhead =>
          exact ih (fun handle hmem => hgeneration handle (List.mem_cons_of_mem _ hmem)) hmark
            (mark_trimmed (hgeneration head List.mem_cons_self) hhead htrimmed)
      · cases hmark

/-- Where children are allocated, none of them has the generation zero. -/
theorem expand_trimmed (hcoherent : arena.Coherent issued) (hclosed : arena.ChildrenAllocated)
    {burst cursor stop : Nat} (hexpand : expand arena burst cursor marking = .ok (stop, after))
    (htrimmed : marking.live.Trimmed) : after.live.Trimmed := by
  induction burst generalizing cursor marking with
  | zero =>
      cases hexpand
      exact htrimmed
  | succ burst ih =>
      rw [expand] at hexpand
      split at hexpand
      · cases hexpand
        exact htrimmed
      split at hexpand
      · cases hexpand
      next node hnode =>
      split at hexpand
      · next middle hmiddle =>
          refine ih hexpand (markAll_trimmed (fun child hchild => ?_) hmiddle htrimmed)
          -- what is marked is a child of a node that is there, and so is there itself
          exact generation_ne_zero_of_contains hcoherent (hclosed _ node hnode child hchild)
      · cases hexpand

theorem close_trimmed (hcoherent : arena.Coherent issued) (hclosed : arena.ChildrenAllocated)
    {chunk cursor : Nat} (hclose : marking.close arena chunk cursor = .ok after)
    (htrimmed : marking.live.Trimmed) : after.live.Trimmed := by
  fun_induction Marking.close marking arena chunk cursor with
  | case1 marking cursor hcursor next middle hexpand ih =>
      exact ih hclose (expand_trimmed hcoherent hclosed hexpand htrimmed)
  | case2 marking cursor hcursor fault hexpand => cases hclose
  | case3 marking cursor hcursor =>
      cases hclose
      exact htrimmed

/-- The list of the members is what has been found, in another order. -/
theorem Valid.perm_toList (hcoherent : arena.Coherent issued) (hvalid : marking.Valid arena)
    (htrimmed : marking.live.Trimmed) : marking.live.toList.Perm marking.found.toList := by
  rw [List.perm_ext_iff_of_nodup htrimmed.nodup_toList hvalid.nodup]
  intro handle
  rw [htrimmed.mem_toList_iff, Array.mem_toList_iff]
  constructor
  · rintro ⟨hgeneration, hat⟩
    rw [← hvalid.contains_iff hgeneration]
    exact (LiveSet.contains_iff hgeneration).mpr hat
  · intro hfound
    have hgeneration := generation_ne_zero_of_contains hcoherent (hvalid.allocated handle hfound)
    exact ⟨hgeneration, (LiveSet.contains_iff hgeneration).mp
      ((hvalid.contains_iff hgeneration).mpr hfound)⟩

end Marking

end ExprHeap
