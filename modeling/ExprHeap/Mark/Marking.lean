import ExprHeap.Mark.LiveSet
import ExprHeap.Store.Arena

/-!
# Marking

Marking computes the handles that can be reached from some first ones along children.  Every
handle that is marked is put at the end of a list of the handles found; a cursor moves along
that list and marks the children of one node after the other, until it has passed the last.
Nodes are so visited in breadth-first order.  The cursor moves in bursts of at most `chunk`
nodes.

A handle at the cursor must name a node, and no slot may be marked in two generations.  In a
store where every child of a node is allocated both always hold; marking otherwise ends with a
fault.

It ends on every arena: an index is marked once at most, so the handles found and the indices
that are still unmarked together never become more, and the cursor moves on.
-/

namespace ExprHeap

/-- The handles marked so far, as a set and in the order of marking. -/
structure Marking where
  live : LiveSet
  found : Array Handle

namespace Marking

/-- Nothing marked. -/
def empty : Marking := { live := .empty, found := #[] }

/-- Marks a handle and answers whether it was not marked before. -/
def mark (marking : Marking) (handle : Handle) : Except Fault (Bool × Marking) :=
  match marking.live.insert handle with
  | .ok (true, live) => .ok (true, { live := live, found := marking.found.push handle })
  | .ok (false, live) => .ok (false, { marking with live := live })
  | .error fault => .error fault

/-- Marks handles in order. -/
def markAll (marking : Marking) : List Handle → Except Fault Marking
  | [] => .ok marking
  | handle :: rest =>
    match marking.mark handle with
    | .ok (_, marking) => marking.markAll rest
    | .error fault => .error fault

/-- Marks the children of the next nodes, at most `burst` of them, and answers where the cursor
stands then. -/
def expand (arena : Arena) : Nat → Nat → Marking → Except Fault (Nat × Marking)
  | 0, cursor, marking => .ok (cursor, marking)
  | burst + 1, cursor, marking =>
    match marking.found[cursor]? with
    | none => .ok (cursor, marking)
    | some handle =>
      match arena.node? handle with
      | none => .error (.markedNodeMissing handle)
      | some node =>
        match marking.markAll node.children with
        | .ok marking => expand arena burst (cursor + 1) marking
        | .error fault => .error fault

/-! ## Why marking ends -/

/-- The number of indices that are not marked. -/
def unmarked (live : LiveSet) : Nat :=
  (List.range Handle.indexBound).countP fun index => live.generationAt index == 0

/-- The number of handles that are marked or may yet be. -/
def budget (marking : Marking) : Nat :=
  unmarked marking.live + marking.found.size

private theorem countP_lt_countP {α : Type} {p q : α → Bool} :
    ∀ {items : List α} {item : α}, (∀ x ∈ items, p x = true → q x = true) → item ∈ items →
      p item = false → q item = true → items.countP p < items.countP q
  | head :: tail, item, himp, hmem, hp, hq => by
    have htail := List.countP_mono_left (l := tail) (p := p) (q := q)
      fun x hx => himp x (List.mem_cons_of_mem _ hx)
    rcases List.mem_cons.mp hmem with rfl | hmem
    · rw [List.countP_cons, List.countP_cons, if_neg (by simp [hp]), if_pos hq]
      omega
    · have hlt := countP_lt_countP (fun x hx => himp x (List.mem_cons_of_mem _ hx)) hmem hp hq
      have hhead := himp head List.mem_cons_self
      rw [List.countP_cons, List.countP_cons]
      by_cases hphead : p head = true
      · rw [if_pos hphead, if_pos (hhead hphead)]
        omega
      · rw [if_neg hphead]
        omega

/-- Growing the table changes no generation. -/
theorem generationAt_reaching (live : LiveSet) (reached index size : Nat) :
    LiveSet.generationAt ⟨LiveSet.reaching live.generations reached, size⟩ index =
      live.generationAt index := by
  unfold LiveSet.generationAt LiveSet.reaching
  rw [Array.getElem?_append]
  split
  · rfl
  · rename_i hsize
    rw [Array.getElem?_eq_none_iff.mpr (Nat.le_of_not_lt hsize), Array.getElem?_replicate]
    split <;> rfl

/-- Setting a generation leaves those of the other indices. -/
theorem generationAt_set (live : LiveSet) (handle : Handle) (index size : Nat) :
    LiveSet.generationAt ⟨(LiveSet.reaching live.generations handle.index.toNat).setIfInBounds
      handle.index.toNat handle.generation, size⟩ index =
      if handle.index.toNat = index then handle.generation else live.generationAt index := by
  have hbound : handle.index.toNat <
      (LiveSet.reaching live.generations handle.index.toNat).size := by
    rw [LiveSet.reaching, Array.size_append, Array.size_replicate]
    omega
  have hreach := generationAt_reaching live handle.index.toNat index size
  unfold LiveSet.generationAt at hreach ⊢
  rw [Array.getElem?_setIfInBounds, if_pos hbound]
  split
  · rfl
  · exact hreach

/-- Marking a handle does not raise the budget. -/
theorem budget_mark_le {marking result : Marking} {handle : Handle} {isNew : Bool}
    (hmark : marking.mark handle = .ok (isNew, result)) : result.budget ≤ marking.budget := by
  unfold mark LiveSet.insert at hmark
  by_cases hknown : marking.live.generationAt handle.index.toNat = handle.generation
  · simp only [if_pos hknown, Except.ok.injEq, Prod.mk.injEq] at hmark
    obtain ⟨-, rfl⟩ := hmark
    simp only [budget, unmarked, generationAt_reaching]
    exact Nat.le_refl _
  · by_cases hzero : marking.live.generationAt handle.index.toNat = 0
    · simp only [if_neg hknown, if_neg (not_not_intro hzero), Except.ok.injEq,
        Prod.mk.injEq] at hmark
      obtain ⟨-, rfl⟩ := hmark
      have hgeneration : handle.generation ≠ 0 := fun h => hknown (hzero.trans h.symm)
      have hlt : unmarked ⟨(LiveSet.reaching marking.live.generations
          handle.index.toNat).setIfInBounds handle.index.toNat handle.generation,
            marking.live.size + 1⟩ < unmarked marking.live := by
        apply countP_lt_countP ?_ (List.mem_range.mpr handle.index.toNat_lt)
        · rw [generationAt_set, if_pos rfl]
          simpa using hgeneration
        · simpa using hzero
        · intro index _ hindex
          rw [generationAt_set] at hindex
          split at hindex
          · simp [hgeneration] at hindex
          · exact hindex
      simp only [budget, Array.size_push]
      omega
    · simp only [if_neg hknown, if_pos hzero] at hmark
      cases hmark

/-- Marking handles does not raise the budget. -/
theorem budget_markAll_le :
    ∀ {handles : List Handle} {marking result : Marking},
      marking.markAll handles = .ok result → result.budget ≤ marking.budget
  | [], marking, result, hresult => by
    cases hresult
    exact Nat.le_refl _
  | handle :: rest, marking, result, hresult => by
    rw [markAll] at hresult
    split at hresult
    · rename_i isNew marked hmark
      exact Nat.le_trans (budget_markAll_le hresult) (budget_mark_le hmark)
    · cases hresult

/-- No burst raises the budget, and the cursor moves by at least one when there is a node to
visit. -/
theorem expand_progress {arena : Arena} :
    ∀ {burst cursor stop : Nat} {marking result : Marking},
      expand arena burst cursor marking = .ok (stop, result) →
        result.budget ≤ marking.budget ∧ cursor ≤ stop ∧
          (0 < burst → cursor < marking.found.size → cursor < stop)
  | 0, cursor, stop, marking, result, hresult => by
    simp only [expand, Except.ok.injEq, Prod.mk.injEq] at hresult
    obtain ⟨rfl, rfl⟩ := hresult
    simp
  | burst + 1, cursor, stop, marking, result, hresult => by
    rw [expand] at hresult
    split at hresult
    · rename_i hnone
      simp only [Except.ok.injEq, Prod.mk.injEq] at hresult
      obtain ⟨rfl, rfl⟩ := hresult
      have hsize := Array.getElem?_eq_none_iff.mp hnone
      exact ⟨Nat.le_refl _, Nat.le_refl _, by omega⟩
    · split at hresult
      · cases hresult
      · split at hresult
        · rename_i marked hmarked
          obtain ⟨hbudget, hcursor, -⟩ := expand_progress hresult
          exact ⟨Nat.le_trans hbudget (budget_markAll_le hmarked), by omega, by omega⟩
        · cases hresult

set_option linter.unusedVariables false in
/-- Moves the cursor in bursts until it has passed the last handle found. -/
def close (marking : Marking) (arena : Arena) (chunk cursor : Nat) : Except Fault Marking :=
  if hcursor : cursor < marking.found.size then
    match hexpand : expand arena (max chunk 1) cursor marking with
    | .ok (next, result) => close result arena chunk next
    | .error fault => .error fault
  else .ok marking
termination_by marking.budget - cursor
decreasing_by
  obtain ⟨hbudget, -, hnext⟩ := expand_progress hexpand
  have := hnext (by omega) hcursor
  have : marking.found.size ≤ marking.budget := Nat.le_add_left _ _
  omega

end Marking

end ExprHeap
