import ExprHeap.Proofs.Generations

/-!
# Renaming handles

A slot that has been in use before starts a new life in a later generation than a slot that never
was, but from there it goes through its generations in the same order and comes back after the same
period.  So the handles to the slots of two stores, one of which has been in use, correspond to each
other: the index is the same, and the generation is as far from the first one (`Past.handle`).
Epochs are moved in the same way, by those that were counted before.

The correspondence is one-to-one (`Past.handle_injective`), also on nodes, which name their children
by handles, and it goes along with what is done to a slot: whether the slot is occupied, vacated or
stamped before the handles are renamed or after makes no difference.
-/

namespace ExprHeap

/-! ### Generations counted from another start -/

/-- The generation that is as far from `start` as the given one is from the first. -/
def agedFrom (start generation : UInt32) : UInt32 :=
  if generation = 0 then 0 else nextGeneration^[generation.toNat - 1] start

section AgedFrom

variable {start generation : UInt32}

theorem agedFrom_ne_zero (hstart : start ≠ 0) (hgeneration : generation ≠ 0) :
    agedFrom start generation ≠ 0 := by
  have htoNat := toNat_iterate_nextGeneration hstart (generation.toNat - 1)
  rw [agedFrom, if_neg hgeneration]
  intro hzero
  rw [hzero, UInt32.toNat_zero] at htoNat
  omega

/-- Generations that differ are a different number of steps from the start, and less than a
period. -/
theorem agedFrom_injective (hstart : start ≠ 0) : Function.Injective (agedFrom start) := by
  intro first second hsame
  have hzero : ∀ generation : UInt32, generation ≠ 0 → generation.toNat ≠ 0 :=
    fun generation hne h => hne (UInt32.toNat_inj.mp h)
  by_cases hfirst : first = 0
  · by_cases hsecond : second = 0
    · rw [hfirst, hsecond]
    · rw [hfirst] at hsame
      exact absurd hsame.symm (agedFrom_ne_zero hstart hsecond)
  · by_cases hsecond : second = 0
    · rw [hsecond] at hsame
      exact absurd hsame (agedFrom_ne_zero hstart hfirst)
    · -- both have gone less than a whole period, so equal ends mean equal ways
      have hfirstAged := toNat_iterate_nextGeneration hstart (first.toNat - 1)
      have hsecondAged := toNat_iterate_nextGeneration hstart (second.toNat - 1)
      rw [agedFrom, agedFrom, if_neg hfirst, if_neg hsecond] at hsame
      rw [hsame, hsecondAged, generationPeriod_eq] at hfirstAged
      have hfirstZero := hzero first hfirst
      have hsecondZero := hzero second hsecond
      have hfirstBound : first.toNat < 4294967296 := first.toNat_lt
      have hsecondBound : second.toNat < 4294967296 := second.toNat_lt
      exact UInt32.toNat_inj.mp (by omega)

/-- The next generation is one step further, also where the generations start again. -/
theorem agedFrom_nextGeneration (hstart : start ≠ 0) (hgeneration : generation ≠ 0) :
    agedFrom start (nextGeneration generation) = nextGeneration (agedFrom start generation) := by
  have hpositive : generation.toNat ≠ 0 := fun h => hgeneration (UInt32.toNat_inj.mp h)
  have hbound : generation.toNat < 4294967296 := generation.toNat_lt
  rw [agedFrom, if_neg (nextGeneration_ne_zero _), agedFrom, if_neg hgeneration,
    ← Function.iterate_succ_apply' nextGeneration, ← UInt32.toNat_inj,
    toNat_iterate_nextGeneration hstart, toNat_iterate_nextGeneration hstart,
    toNat_nextGeneration, generationPeriod_eq]
  omega

end AgedFrom

/-! ### Handles, nodes and slots -/

/-- What a store that has been in use before starts with. -/
structure Past where
  /-- The generation in which each slot starts. -/
  start : UInt32 → UInt32
  start_ne_zero : ∀ index, start index ≠ 0
  /-- The number of epochs before. -/
  epochs : Nat

namespace Past

variable (past : Past)

/-- The handle that corresponds to one of a store that has not been in use before. -/
def handle (given : Handle) : Handle :=
  { given with generation := agedFrom (past.start given.index) given.generation }

/-- The node with the corresponding children. -/
def node (given : Node) : Node :=
  { given with children := given.children.map past.handle }

/-- The entry with the corresponding node and epochs; what has never been shaded still has not. -/
def entry (given : Entry) : Entry where
  node := past.node given.node
  born := past.epochs + given.born
  shaded := if given.shaded = 0 then 0 else past.epochs + given.shaded

/-- The slot with the corresponding generation and entry. -/
def slot (index : UInt32) (given : Slot) : Slot where
  generation := agedFrom (past.start index) given.generation
  entry := given.entry.map past.entry

@[simp] theorem index_handle (given : Handle) : (past.handle given).index = given.index := rfl

theorem handle_injective : Function.Injective past.handle := by
  rintro ⟨index, first⟩ ⟨other, second⟩ hsame
  obtain ⟨hindex, hgeneration⟩ := Handle.mk.inj hsame
  obtain rfl : index = other := hindex
  exact congrArg (Handle.mk index) (agedFrom_injective (past.start_ne_zero index) hgeneration)

theorem node_injective : Function.Injective past.node := by
  rintro ⟨op, children, width⟩ ⟨otherOp, otherChildren, otherWidth⟩ hsame
  obtain ⟨hop, hchildren, hwidth⟩ := Node.mk.inj hsame
  have hsameChildren : children = otherChildren :=
    List.map_injective_iff.mpr past.handle_injective hchildren
  exact congr (congr (congrArg Node.mk hop) hsameChildren) hwidth

/-- A slot that has never been in use corresponds to one in the generation of its start. -/
theorem slot_fresh (index : UInt32) :
    past.slot index .fresh = { generation := past.start index, entry := none } := rfl

/-! ### What is done to slots and entries -/

theorem slot_occupied (index : UInt32) (given : Slot) (content : Entry) :
    past.slot index (given.occupied content) =
      (past.slot index given).occupied (past.entry content) := rfl

theorem slot_vacated (index : UInt32) {given : Slot} (hgeneration : given.generation ≠ 0) :
    past.slot index given.vacated = (past.slot index given).vacated := by
  obtain ⟨generation, content⟩ := given
  cases content with
  | none => rfl
  | some entry =>
      simp only [Slot.vacated, slot, Option.isSome_some, Option.map_some, if_true, Option.map_none]
      rw [agedFrom_nextGeneration (past.start_ne_zero index) hgeneration]

variable {epoch : Nat}

theorem slot_stamped (index : UInt32) (given : Slot) (hepoch : 0 < epoch) :
    past.slot index (given.stamped epoch) =
      (past.slot index given).stamped (past.epochs + epoch) := by
  obtain ⟨generation, content⟩ := given
  cases content with
  | none => rfl
  | some content => simp [Slot.stamped, slot, entry, Nat.ne_of_gt hepoch]

/-- Being shaded in an epoch carries over: the epochs before are no epochs of either store, and
neither is zero. -/
theorem entry_shaded_eq_iff (given : Entry) (hepoch : 0 < epoch) :
    (past.entry given).shaded = past.epochs + epoch ↔ given.shaded = epoch := by
  unfold entry
  dsimp only
  split
  · omega
  · omega

theorem entry_isKept (given : Entry) (hepoch : 0 < epoch) :
    (past.entry given).isKept (past.epochs + epoch) = given.isKept epoch := by
  rw [Bool.eq_iff_iff]
  simp only [Entry.isKept, Bool.or_eq_true, beq_iff_eq, past.entry_shaded_eq_iff given hepoch]
  refine or_congr_right ?_
  show past.epochs + given.born = past.epochs + epoch ↔ _
  omega

end Past

/-! ### What does not depend on generations -/

/-- A handle without its generation. -/
def Handle.unaged (handle : Handle) : Handle := { handle with generation := 0 }

/-- A node without the generations of its children. -/
def Node.unaged (node : Node) : Node := { node with children := node.children.map Handle.unaged }

/-- An answer to an allocation without the generation of its handle. -/
def Allocation.unaged : Allocation → Allocation
  | .shared handle => .shared handle.unaged
  | .fresh handle => .fresh handle.unaged

/-- An error without the generation of the handle that it names. -/
def HeapError.unaged : HeapError → HeapError
  | .invalidHandle word => .invalidHandle word.toUInt32.toUInt64
  | error => error

theorem Handle.toUInt32_word (handle : Handle) : handle.word.toUInt32 = handle.index := by
  have hindex : handle.index.toNat < 2 ^ 32 := handle.index.toNat_lt
  apply UInt32.toNat_inj.mp
  rw [UInt64.toNat_toUInt32, handle.toNat_word]
  show (handle.generation.toNat * 2 ^ 32 + handle.index.toNat) % 2 ^ 32 = handle.index.toNat
  omega

namespace Past

variable (past : Past)

/-- The answer with the corresponding handle. -/
def allocation : Allocation → Allocation
  | .shared given => .shared (past.handle given)
  | .fresh given => .fresh (past.handle given)

@[simp] theorem unaged_handles (given : List Handle) :
    (given.map past.handle).map Handle.unaged = given.map Handle.unaged :=
  List.map_map

@[simp] theorem unaged_node (given : Node) : (past.node given).unaged = given.unaged :=
  congrArg (Node.mk given.op · given.width) (past.unaged_handles given.children)

@[simp] theorem unaged_allocation (given : Allocation) :
    (past.allocation given).unaged = given.unaged := by
  cases given <;> rfl

@[simp] theorem handle_allocation (given : Allocation) :
    (past.allocation given).handle = past.handle given.handle := by
  cases given <;> rfl

theorem unaged_invalidHandle (given : Handle) :
    (HeapError.invalidHandle (past.handle given).word).unaged =
      (HeapError.invalidHandle given.word).unaged := by
  simp only [HeapError.unaged, Handle.toUInt32_word, index_handle]

end Past

end ExprHeap
