import ExprHeap.Proofs.LiveSets
import Mathlib.Data.Finset.Card
import Mathlib.Data.Finset.Dedup

/-!
# Insertion after insertion

A live set keeps one generation for each slot and a count of its own.  Here handles are inserted
into it one after the other (`LiveSet.insertAll`), each with a generation, and no slot with two
(`LiveSet.OneGeneration`).  Then the table, the count and the list of the members all speak of the
finite set of the handles that have been inserted (`LiveSet.insertAll_faithful`).

## Strategy

`LiveSet.Holds` says that a set holds the handles of a list and no others.  One insertion takes the
list on by one handle, and its answer says whether the handle is new to the list
(`Holds.insert`); the run follows by induction on the handles still to come.  As a set is told by
its members and their number, two runs over the same handles end with the same set, in whatever
order they have inserted them (`Holds.eq_of_mem_iff`).
-/

namespace ExprHeap

namespace LiveSet

variable {live other : LiveSet} {handle : Handle} {seen handles : List Handle}

/-- Inserts handles in order and answers for each of them whether it was not a member before. -/
def insertAll (live : LiveSet) : List Handle → Except Fault (List Bool × LiveSet)
  | [] => .ok ([], live)
  | handle :: rest =>
    match live.insert handle with
    | .ok (isNew, live) =>
      match live.insertAll rest with
      | .ok (answers, live) => .ok (isNew :: answers, live)
      | .error fault => .error fault
    | .error fault => .error fault

/-- Every handle has a generation, and handles to one slot have the same. -/
structure OneGeneration (handles : List Handle) : Prop where
  generation_ne_zero : ∀ handle ∈ handles, handle.generation ≠ 0
  generation_eq : ∀ first ∈ handles, ∀ second ∈ handles,
    first.index = second.index → first.generation = second.generation

theorem OneGeneration.subset (hone : OneGeneration handles) (hsubset : seen ⊆ handles) :
    OneGeneration seen where
  generation_ne_zero handle hmem := hone.generation_ne_zero handle (hsubset hmem)
  generation_eq first hfirst second hsecond :=
    hone.generation_eq first (hsubset hfirst) second (hsubset hsecond)

/-- Then the slot tells the handle. -/
theorem OneGeneration.eq_of_index_eq (hone : OneGeneration handles) {first second : Handle}
    (hfirst : first ∈ handles) (hsecond : second ∈ handles)
    (hindex : first.index.toNat = second.index.toNat) : first = second := by
  have hsame : first.index = second.index := UInt32.toNat_inj.mp hindex
  exact Handle.ext_toNat hindex (hone.generation_eq first hfirst second hsecond hsame)

/-! ### What a set holds -/

/-- The set holds the handles of a list and no others. -/
structure Holds (live : LiveSet) (seen : List Handle) : Prop where
  trimmed : live.Trimmed
  mem_toList : ∀ handle, handle ∈ live.toList ↔ handle ∈ seen
  size_eq : live.size = seen.toFinset.card

theorem holds_empty : empty.Holds [] where
  trimmed := trimmed_empty
  mem_toList handle := by simp [empty, toList]
  size_eq := rfl

theorem Holds.generationAt_iff (hholds : live.Holds seen) (hgeneration : handle.generation ≠ 0) :
    live.generationAt handle.index.toNat = handle.generation ↔ handle ∈ seen := by
  rw [← hholds.mem_toList, hholds.trimmed.mem_toList_iff, and_iff_right hgeneration]

theorem Holds.contains_iff (hholds : live.Holds seen) (hgeneration : handle.generation ≠ 0) :
    live.contains handle = true ↔ handle ∈ seen := by
  rw [LiveSet.contains_iff hgeneration, hholds.generationAt_iff hgeneration]

theorem Holds.isEmpty_iff (hholds : live.Holds seen) : live.isEmpty = true ↔ seen = [] := by
  rw [isEmpty, beq_iff_eq, hholds.size_eq, Finset.card_eq_zero, List.toFinset_eq_empty_iff]

/-- A set is told by the handles it holds, in whatever order they are listed. -/
theorem Holds.eq_of_mem_iff {listed : List Handle} (hholds : live.Holds seen)
    (hother : other.Holds listed) (hmem : ∀ handle, handle ∈ seen ↔ handle ∈ listed) :
    live = other := by
  refine hholds.trimmed.eq_of_mem_iff hother.trimmed (fun handle => ?_) ?_
  · rw [hholds.mem_toList, hmem, hother.mem_toList]
  · have hsame : seen.toFinset = listed.toFinset := List.toFinset.ext hmem
    rw [hholds.size_eq, hother.size_eq, hsame]

/-! ### One insertion -/

/-- The slot of a handle that is not held has not been seen. -/
theorem Holds.generationAt_eq_zero (hholds : live.Holds seen)
    (hone : OneGeneration (seen ++ [handle])) (hnew : handle ∉ seen) :
    live.generationAt handle.index.toNat = 0 := by
  by_contra hknown
  -- the generation that was seen there belongs to a handle of the list
  have hknownSeen : (⟨handle.index, live.generationAt handle.index.toNat⟩ : Handle) ∈ seen :=
    (hholds.generationAt_iff hknown).mp rfl
  have hsame := hone.eq_of_index_eq (List.mem_append_left _ hknownSeen)
    (List.mem_append_right _ (List.mem_singleton_self handle)) rfl
  exact hnew (hsame ▸ hknownSeen)

/-- The members after the generation of a handle has been written into its place. -/
theorem Holds.mem_toList_append {after : LiveSet} (hholds : live.Holds seen)
    (hone : OneGeneration (seen ++ [handle])) (htrimmed : after.Trimmed)
    (hset : ∀ index, after.generationAt index =
      if handle.index.toNat = index then handle.generation else live.generationAt index)
    (other : Handle) : other ∈ after.toList ↔ other ∈ seen ++ [handle] := by
  have hlast : handle ∈ seen ++ [handle] := List.mem_append_right _ (List.mem_singleton_self _)
  have hgeneration := hone.generation_ne_zero handle hlast
  rw [htrimmed.mem_toList_iff, hset]
  by_cases hindex : handle.index.toNat = other.index.toNat
  · -- of the handles to this slot only the one inserted is listed
    rw [if_pos hindex]
    constructor
    · rintro ⟨-, hsame⟩
      exact Handle.ext_toNat hindex hsame ▸ hlast
    · intro hmem
      obtain rfl := hone.eq_of_index_eq hlast hmem hindex
      exact ⟨hgeneration, rfl⟩
  · rw [if_neg hindex, ← hholds.trimmed.mem_toList_iff, hholds.mem_toList, List.mem_append,
      List.mem_singleton]
    exact ⟨.inl, fun hmem => hmem.resolve_right fun heq => hindex (heq ▸ rfl)⟩

/-- **An insertion answers whether the handle is new**, and the set then holds it too. -/
theorem Holds.insert (hholds : live.Holds seen) (hone : OneGeneration (seen ++ [handle])) :
    ∃ after, live.insert handle = .ok (decide (handle ∉ seen), after) ∧
      after.Holds (seen ++ [handle]) := by
  have hgeneration := hone.generation_ne_zero handle
    (List.mem_append_right _ (List.mem_singleton_self handle))
  -- a handle that was seen changes nothing, and another one finds its place empty
  by_cases hseen : handle ∈ seen
  · have hknown := (hholds.generationAt_iff hgeneration).mpr hseen
    obtain ⟨after, hinsert, hsize, hsame⟩ := insert_of_seen hknown
    have htrimmed := hholds.trimmed.insert hgeneration hinsert
    refine ⟨after, by simpa [hseen] using hinsert,
      { trimmed := htrimmed
        mem_toList := hholds.mem_toList_append hone htrimmed fun index => ?_
        size_eq := ?_ }⟩
    · rw [hsame]
      split
      · next hindex => rw [← hindex, hknown]
      · rfl
    · have hsubset : [handle].toFinset ⊆ seen.toFinset := by simpa using hseen
      rw [hsize, hholds.size_eq, List.toFinset_append, Finset.union_eq_left.mpr hsubset]
  · obtain ⟨after, hinsert, hsize, hset⟩ :=
      insert_of_unseen hgeneration (hholds.generationAt_eq_zero hone hseen)
    have htrimmed := hholds.trimmed.insert hgeneration hinsert
    refine ⟨after, by simpa [hseen] using hinsert,
      { trimmed := htrimmed
        mem_toList := hholds.mem_toList_append hone htrimmed hset
        size_eq := ?_ }⟩
    have hdisjoint : Disjoint seen.toFinset [handle].toFinset := by simpa using hseen
    rw [hsize, hholds.size_eq, List.toFinset_append, Finset.card_union_of_disjoint hdisjoint]
    rfl

/-! ### A run of insertions -/

/-- The answers to a run say which handles come for the first time. -/
theorem Holds.insertAll (hholds : live.Holds seen) (hone : OneGeneration (seen ++ handles)) :
    ∃ after, live.insertAll handles = .ok (handles.mapIdx fun position handle =>
        decide (handle ∉ seen ++ handles.take position), after) ∧
      after.Holds (seen ++ handles) := by
  induction handles generalizing live seen with
  | nil => exact ⟨live, rfl, by simpa using hholds⟩
  | cons handle rest ih =>
      have happend : seen ++ handle :: rest = seen ++ [handle] ++ rest :=
        List.append_cons seen handle rest
      rw [happend] at hone
      obtain ⟨middle, hinsert, hmiddle⟩ :=
        hholds.insert (hone.subset (List.subset_append_left _ rest))
      obtain ⟨after, hrest, hafter⟩ := ih hmiddle hone
      refine ⟨after, ?_, happend ▸ hafter⟩
      -- what has been seen before a later position starts with this handle
      have hlater : (fun (position : Nat) (other : Handle) =>
          decide (other ∉ seen ++ [handle] ++ rest.take position)) =
          fun position other => decide (other ∉ seen ++ (handle :: rest).take (position + 1)) := by
        funext position other
        rw [List.take_succ_cons, List.append_cons seen handle (rest.take position)]
      rw [LiveSet.insertAll]
      simp only [hinsert, hrest]
      rw [hlater, List.mapIdx_cons, List.take_zero, List.append_nil]

/-- **A live set is the finite set of the handles inserted into it.**  Handles with a generation
can be inserted one after the other as long as no slot is given two generations.  Each insertion
answers whether it is the first of its handle.  A handle is a member afterwards if it has been
inserted, the size is the number of handles inserted, and the list of the members has each of them
once, in the order of the slots.  Another run over the same handles ends with the same set. -/
theorem insertAll_faithful {handles : List Handle} (hone : OneGeneration handles) :
    ∃ live, empty.insertAll handles = .ok (handles.mapIdx fun position handle =>
        decide (handle ∉ handles.take position), live) ∧
      (∀ handle, handle.generation ≠ 0 → (live.contains handle = true ↔ handle ∈ handles)) ∧
      live.size = handles.toFinset.card ∧
      (live.isEmpty = true ↔ handles = []) ∧
      (live.toList.Pairwise fun first second => first.index < second.index) ∧
      (∀ handle, live.toList.count handle = if handle ∈ handles then 1 else 0) ∧
      ∀ others, (∀ handle, handle ∈ others ↔ handle ∈ handles) →
        ∃ answers, empty.insertAll others = .ok (answers, live) := by
  obtain ⟨live, hrun, hholds⟩ := holds_empty.insertAll hone
  simp only [List.nil_append] at hrun hholds
  refine ⟨live, hrun, fun handle hgeneration => hholds.contains_iff hgeneration, hholds.size_eq,
    hholds.isEmpty_iff, hholds.trimmed.pairwise_toList, fun handle => ?_, fun others hmem => ?_⟩
  · rw [hholds.trimmed.nodup_toList.count]
    simp only [hholds.mem_toList]
  · have hothers : OneGeneration others := hone.subset fun handle => (hmem handle).mp
    obtain ⟨other, hotherRun, hother⟩ := holds_empty.insertAll hothers
    rw [List.nil_append] at hother
    obtain rfl := hholds.eq_of_mem_iff hother fun handle => (hmem handle).symm
    exact ⟨_, hotherRun⟩

/-- Two handles are inserted, the one with the larger index first and a second time at the end. -/
def ninthAndThird : List Handle := [⟨9, 2⟩, ⟨3, 1⟩, ⟨9, 2⟩]

theorem oneGeneration_ninthAndThird : OneGeneration ninthAndThird where
  generation_ne_zero := by decide
  generation_eq := by decide

/-- Of the three insertions the last one is answered with no.  Another generation of the ninth slot
is no member, nor is a slot past the end of the table, and the third slot is listed first. -/
theorem ninthAndThird_faithful :
    OneGeneration ninthAndThird ∧
      ∃ live, empty.insertAll ninthAndThird = .ok ([true, true, false], live) ∧
        live.contains ⟨9, 2⟩ = true ∧ live.contains ⟨9, 3⟩ = false ∧
        live.contains ⟨100, 2⟩ = false ∧ live.size = 2 ∧ live.isEmpty = false ∧
        live.toList = [⟨3, 1⟩, ⟨9, 2⟩] ∧
        ∃ answers, empty.insertAll [⟨3, 1⟩, ⟨9, 2⟩] = .ok (answers, live) := by
  obtain ⟨live, hrun, hcontains, hsize, hempty, -, -, hothers⟩ :=
    insertAll_faithful oneGeneration_ninthAndThird
  have hmem : ∀ handle : Handle, handle.generation ≠ 0 → handle ∉ ninthAndThird →
      live.contains handle = false := fun handle hgeneration hnot =>
    Bool.eq_false_iff.mpr fun hcontained => hnot ((hcontains handle hgeneration).mp hcontained)
  have htable : empty.insertAll ninthAndThird =
      .ok ([true, true, false], ⟨#[0, 0, 0, 1, 0, 0, 0, 0, 0, 2], 2⟩) := by rfl
  have hlist : live.toList = [⟨3, 1⟩, ⟨9, 2⟩] := by
    obtain ⟨-, rfl⟩ := Prod.mk.inj (Except.ok.inj (htable.symm.trans hrun))
    rfl
  refine ⟨oneGeneration_ninthAndThird, live, hrun, ?_, hmem _ (by decide) (by decide),
    hmem _ (by decide) (by decide), hsize, ?_, hlist, ?_⟩
  · exact (hcontains ⟨9, 2⟩ (by decide)).mpr (by decide)
  · exact Bool.eq_false_iff.mpr fun hnone => absurd (hempty.mp hnone) (by decide)
  · exact hothers _ (by simp [ninthAndThird, or_comm])

end LiveSet

end ExprHeap
