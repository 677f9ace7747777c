import ExprHeap.Proofs.Census
import ExprHeap.Proofs.Representation
import ExprHeap.Proofs.StoreRuns
import ExprHeap.Proofs.Sweep

/-!
# The books of a store

A store keeps three totals by hand, and each is written at another place: one is raised when a node
is placed, one when a node is shared, and the third when a node is released, when the store is
cleared, and at the end of a sweep, for everything that the sweep has reclaimed until then.  The
size is kept in the arena, apart from all of these.

The *books* of a store are the store together with what is known of the calls made of it: how many
requests were answered with a handle, how many of them with a new one, and how many slots a sweep
has reclaimed and not yet counted.  A sweep may take the slots in any order, leave some out, and
have requests between them.

## Strategy

`Books.Kept` says how the totals, the size and the counts of calls have to agree; what is not yet
counted stands on the side of the totals.  Each single call keeps it, as a request, a reclaimed slot
and the note at the end of a sweep each move as much on the one side as on the other.
-/

namespace ExprHeap

namespace Arena

variable {arena : Arena} {issued : Nat}

/-! ### What a call does to the size -/

theorem foldl_shade_size (arena : Arena) (roots : List Handle) :
    (roots.foldl shade arena).size = arena.size :=
  foldl_shade_eq Arena.size shade_size roots arena

theorem Coherent.size_remove (hcoherent : arena.Coherent issued) {handle : Handle} {entry : Entry}
    (hentry : arena.table.entryOf? handle = some entry) :
    (arena.remove handle entry.node).size + 1 = arena.size :=
  Nat.sub_add_cancel (hcoherent.size_pos hentry)

/-- A slot that is reclaimed makes the arena smaller by one. -/
theorem Coherent.size_reclaim (hcoherent : arena.Coherent issued) (epoch : Nat)
    (isLive : Handle → Bool) (index : Nat) :
    (arena.reclaim epoch isLive index).1.toList.length +
      (arena.reclaim epoch isLive index).2.size = arena.size := by
  rcases hcoherent.reclaim_cases epoch isLive index with
    ⟨hkept, -⟩ | ⟨handle, entry, -, hentry, -, htaken⟩
  · rw [hkept]
    exact Nat.zero_add _
  · rw [htaken, ← hcoherent.size_remove hentry]
    exact Nat.add_comm _ _

end Arena

namespace Store

variable {store : Store}

/-! ### What a request brings about -/

/-- How many handles a request is answered with. -/
def grants (store : Store) : NodeRequest → Nat
  | .allocate node =>
    match store.allocate node with
    | .ok _ => 1
    | .error _ => 0
  | .shade _ => 0

/-- How many new nodes a request brings about. -/
def births (store : Store) : NodeRequest → Nat
  | .allocate node =>
    match store.allocate node with
    | .ok (.fresh _, _) => 1
    | .ok (.shared _, _) => 0
    | .error _ => 0
  | .shade _ => 0

/-- What a request adds to the totals and to the size. -/
structure Adds (store after : Store) (grants births : Nat) : Prop where
  allocations_eq : after.allocations = store.allocations + births
  size_eq : after.size = store.size + births
  frees_eq : after.frees = store.frees
  granted_eq : after.allocations + after.internHits =
    store.allocations + store.internHits + grants

theorem adds_refl (store : Store) : store.Adds store 0 0 := ⟨rfl, rfl, rfl, rfl⟩

theorem adds_allocate (store : Store) (node : Node) :
    store.Adds (store.perform (.request (.allocate node))) (store.grants (.allocate node))
      (store.births (.allocate node)) := by
  cases harena : store.arena.allocate node with
  | error error =>
      have hallocate : store.allocate node = .error error := by rw [Store.allocate, harena]
      simp only [perform, grants, births, hallocate]
      exact adds_refl store
  | ok answer =>
      obtain ⟨allocation, arena⟩ := answer
      -- a shared answer counts as a hit, a fresh one as an allocation with one node more
      obtain ⟨-, -, ⟨handle, rfl, -, rfl⟩ | ⟨-, -, rfl, rfl⟩⟩ := Arena.allocate_cases harena
      · have hallocate : store.allocate node = .ok (.shared handle, { store with
            arena := store.arena.shade handle
            internHits := store.internHits + 1 }) := by rw [Store.allocate, harena]
        simp only [perform, grants, births, hallocate]
        exact ⟨rfl, store.arena.shade_size handle, rfl, rfl⟩
      · have hallocate : store.allocate node =
            .ok (.fresh ((node.children.foldl Arena.shade store.arena).place node).1, { store with
              arena := ((node.children.foldl Arena.shade store.arena).place node).2
              allocations := store.allocations + 1 }) := by rw [Store.allocate, harena]
        have hsize : ((node.children.foldl Arena.shade store.arena).place node).2.size =
            store.arena.size + 1 := by
          rw [Arena.place_size, Arena.foldl_shade_size]
        simp only [perform, grants, births, hallocate]
        exact ⟨rfl, hsize, rfl, Nat.add_right_comm _ _ _⟩

/-- **Each total and the size grow by what a request brings about.** -/
theorem adds_request (store : Store) (request : NodeRequest) :
    store.Adds (store.perform (.request request)) (store.grants request)
      (store.births request) := by
  cases request with
  | allocate node => exact store.adds_allocate node
  | shade handle =>
      simp only [perform, shade]
      by_cases hcontains : store.arena.contains handle = true
      · simp only [hcontains, if_true]
        exact ⟨rfl, store.arena.shade_size handle, rfl, rfl⟩
      · simp only [hcontains]
        exact adds_refl store

end Store

/-- The totals of a store agree with its nodes, and with the number of requests that have been
answered with a handle. -/
structure Store.Balanced (store : Store) (granted : Nat) : Prop where
  allocations_eq : store.allocations = store.frees + store.size
  size_eq : store.size = store.arena.handles.ncard
  granted_eq : store.allocations + store.internHits = granted

/-! ### The books -/

/-- What can be done with a store. -/
inductive StoreAction where
  | request (request : NodeRequest)
  | release (handle : Handle)
  /-- Slots are reclaimed one by one, with requests between them, and then counted. -/
  | sweep (epoch : Nat) (isLive : Handle → Bool) (steps : List SweepStep)
  | beginCycle
  | endCycle
  | clear

/-- A store, and what is known of the calls made of it. -/
structure Books where
  store : Store
  /-- The requests answered with a handle. -/
  granted : Nat
  /-- The requests answered with a new one. -/
  born : Nat
  /-- The slots reclaimed and not yet counted. -/
  freed : Nat

namespace Books

variable {books : Books}

/-- The books of an empty store. -/
def opened (capacity : Nat) : Books :=
  { store := .empty capacity, granted := 0, born := 0, freed := 0 }

/-- A request is made. -/
def request (books : Books) (request : NodeRequest) : Books :=
  { books with
    store := books.store.perform (.request request)
    granted := books.granted + books.store.grants request
    born := books.born + books.store.births request }

/-- A slot is reclaimed and not yet counted. -/
def reclaim (books : Books) (epoch : Nat) (isLive : Handle → Bool) (index : Nat) : Books :=
  { books with
    store := { books.store with arena := (books.store.arena.reclaim epoch isLive index).2 }
    freed := books.freed + (books.store.arena.reclaim epoch isLive index).1.toList.length }

/-- What has been reclaimed is counted. -/
def note (books : Books) : Books :=
  { books with store := { books.store with frees := books.store.frees + books.freed }, freed := 0 }

/-- One step of a sweep. -/
def sweepStep (epoch : Nat) (isLive : Handle → Bool) (books : Books) : SweepStep → Books
  | .request asked => books.request asked
  | .reclaim index => books.reclaim epoch isLive index

/-- The steps of a sweep, up to the note at its end. -/
def sweep (books : Books) (epoch : Nat) (isLive : Handle → Bool) (steps : List SweepStep) :
    Books :=
  steps.foldl (sweepStep epoch isLive) books

/-- The books after an action. -/
def act (books : Books) : StoreAction → Books
  | .request asked => books.request asked
  | .release handle => { books with store := books.store.perform (.release handle) }
  | .sweep epoch isLive steps => (books.sweep epoch isLive steps).note
  | .beginCycle => { books with store := books.store.perform .beginCycle }
  | .endCycle => { books with store := books.store.perform .endCycle }
  | .clear => { books with store := books.store.perform .clear }

/-- The books after actions on an empty store. -/
def after (capacity : Nat) (actions : List StoreAction) : Books :=
  actions.foldl act (.opened capacity)

/-! ### They are kept -/

/-- The totals agree with the size and with the calls made. -/
structure Kept (books : Books) : Prop where
  coherent : ∃ issued, books.store.arena.Coherent issued
  allocations_eq : books.store.allocations = books.store.frees + books.freed + books.store.size
  granted_eq : books.store.allocations + books.store.internHits = books.granted
  born_eq : books.store.allocations = books.born

theorem kept_opened (capacity : Nat) : (opened capacity).Kept where
  coherent := ⟨0, Arena.coherent_empty capacity⟩
  allocations_eq := rfl
  granted_eq := rfl
  born_eq := rfl

theorem Kept.request (hkept : books.Kept) (asked : NodeRequest) : (books.request asked).Kept := by
  obtain ⟨_, hcoherent⟩ := hkept.coherent
  have hadds := books.store.adds_request asked
  have hallocations := hkept.allocations_eq
  constructor
  · exact Store.coherent_perform hcoherent (.request asked)
  · show (books.store.perform _).allocations =
      (books.store.perform _).frees + books.freed + (books.store.perform _).size
    rw [hadds.allocations_eq, hadds.frees_eq, hadds.size_eq]
    omega
  · exact hadds.granted_eq.trans (congrArg (· + _) hkept.granted_eq)
  · exact hadds.allocations_eq.trans (congrArg (· + _) hkept.born_eq)

theorem Kept.reclaim (hkept : books.Kept) (epoch : Nat) (isLive : Handle → Bool) (index : Nat) :
    (books.reclaim epoch isLive index).Kept := by
  obtain ⟨_, hcoherent⟩ := hkept.coherent
  -- a node that is reclaimed goes from the size to what was freed
  have hsize := hcoherent.size_reclaim epoch isLive index
  refine ⟨⟨_, hcoherent.reclaim epoch isLive index⟩, ?_, hkept.granted_eq, hkept.born_eq⟩
  have hallocations : books.store.allocations =
      books.store.frees + books.freed + books.store.arena.size := hkept.allocations_eq
  show books.store.allocations = books.store.frees +
    (books.freed + (books.store.arena.reclaim epoch isLive index).1.toList.length) +
      (books.store.arena.reclaim epoch isLive index).2.size
  omega

theorem Kept.note (hkept : books.Kept) : books.note.Kept where
  coherent := hkept.coherent
  allocations_eq := hkept.allocations_eq
  granted_eq := hkept.granted_eq
  born_eq := hkept.born_eq

theorem Kept.sweep (hkept : books.Kept) (epoch : Nat) (isLive : Handle → Bool)
    (steps : List SweepStep) : (books.sweep epoch isLive steps).Kept := by
  unfold Books.sweep
  induction steps generalizing books with
  | nil => exact hkept
  | cons step rest ih =>
      cases step with
      | request asked => exact ih (hkept.request asked)
      | reclaim index => exact ih (hkept.reclaim epoch isLive index)

/-- What is taken away at once is counted at once. -/
theorem Kept.perform (hkept : books.Kept) {call : StoreCall}
    (hallocations : (books.store.perform call).allocations = books.store.allocations)
    (hhits : (books.store.perform call).internHits = books.store.internHits)
    (hsize : (books.store.perform call).frees + (books.store.perform call).size =
      books.store.frees + books.store.size) :
    Kept { books with store := books.store.perform call } := by
  obtain ⟨_, hcoherent⟩ := hkept.coherent
  have hbefore := hkept.allocations_eq
  constructor
  · exact Store.coherent_perform hcoherent call
  · show (books.store.perform call).allocations =
      (books.store.perform call).frees + books.freed + (books.store.perform call).size
    omega
  · show (books.store.perform call).allocations + (books.store.perform call).internHits =
      books.granted
    rw [hallocations, hhits, hkept.granted_eq]
  · exact hallocations.trans hkept.born_eq

theorem Kept.release (hkept : books.Kept) (handle : Handle) :
    (books.act (.release handle)).Kept := by
  obtain ⟨_, hcoherent⟩ := hkept.coherent
  cases hentry : books.store.arena.table.entryOf? handle with
  | none =>
      have hsame : books.store.perform (.release handle) = books.store := by
        simp only [Store.perform, Store.release, Arena.release, hentry]
      apply hkept.perform <;> rw [hsame]
  | some entry =>
      have hremoved : books.store.perform (.release handle) = { books.store with
          arena := books.store.arena.remove handle entry.node
          frees := books.store.frees + 1 } := by
        simp only [Store.perform, Store.release, Arena.release, hentry]
      have hsize := hcoherent.size_remove hentry
      apply hkept.perform <;> rw [hremoved]
      show books.store.frees + 1 + (books.store.arena.remove handle entry.node).size =
        books.store.frees + books.store.arena.size
      omega

/-- **Every action keeps the books.** -/
theorem Kept.act (hkept : books.Kept) (action : StoreAction) : (books.act action).Kept := by
  cases action with
  | request asked => exact hkept.request asked
  | release handle => exact hkept.release handle
  | sweep epoch isLive steps => exact (hkept.sweep epoch isLive steps).note
  | beginCycle => exact hkept.perform rfl rfl rfl
  | endCycle => exact hkept.perform rfl rfl rfl
  | clear => exact hkept.perform rfl rfl rfl

theorem kept_after (capacity : Nat) (actions : List StoreAction) :
    (after capacity actions).Kept := by
  suffices hkept : ∀ books : Books, books.Kept → (actions.foldl act books).Kept from
    hkept _ (kept_opened capacity)
  induction actions with
  | nil => exact fun _ hkept => hkept
  | cons action rest ih => exact fun _ hkept => ih _ (hkept.act action)

/-! ### Nothing is left uncounted -/

theorem freed_act (books : Books) (action : StoreAction) (hfreed : books.freed = 0) :
    (books.act action).freed = 0 := by
  cases action with
  | sweep epoch isLive steps => rfl
  | _ => exact hfreed

theorem freed_after (capacity : Nat) (actions : List StoreAction) :
    (after capacity actions).freed = 0 := by
  suffices hfreed : ∀ books : Books, books.freed = 0 → (actions.foldl act books).freed = 0 from
    hfreed _ rfl
  induction actions with
  | nil => exact fun _ hfreed => hfreed
  | cons action rest ih => exact fun books hfreed => ih _ (books.freed_act action hfreed)

theorem Kept.balanced (hkept : books.Kept) (hfreed : books.freed = 0) :
    books.store.Balanced books.granted where
  allocations_eq := by rw [hkept.allocations_eq, hfreed, Nat.add_zero]
  size_eq := by
    obtain ⟨_, hcoherent⟩ := hkept.coherent
    exact hcoherent.ncard_handles.symm
  granted_eq := hkept.granted_eq

/-- Until the note at its end a sweep does not touch the total of what was taken away. -/
theorem frees_sweep (books : Books) (epoch : Nat) (isLive : Handle → Bool)
    (steps : List SweepStep) :
    (books.sweep epoch isLive steps).store.frees = books.store.frees := by
  unfold Books.sweep
  induction steps generalizing books with
  | nil => rfl
  | cons step rest ih =>
      cases step with
      | request asked => exact (ih _).trans (books.store.adds_request asked).frees_eq
      | reclaim index => exact ih _

/-- **What a sweep frees and what it leaves are what there was and what was born meanwhile.** -/
theorem Kept.freed_add_size (hkept : books.Kept) (hfreed : books.freed = 0) (epoch : Nat)
    (isLive : Handle → Bool) (steps : List SweepStep) :
    (books.sweep epoch isLive steps).freed + (books.sweep epoch isLive steps).store.size +
        books.born =
      books.store.size + (books.sweep epoch isLive steps).born := by
  have hafter := hkept.sweep epoch isLive steps
  have hfrees := books.frees_sweep epoch isLive steps
  -- the books balance before and after, and the difference is what the sweep took
  have hbefore := hkept.allocations_eq
  rw [hkept.born_eq] at hbefore
  have hswept := hafter.allocations_eq
  rw [hafter.born_eq] at hswept
  omega

end Books

/-! ### The sweep of the store -/

theorem Sweep.size_freed_visit (epoch : Nat) (isLive : Handle → Bool) (sweep : Sweep)
    (index : Nat) : (sweep.visit epoch isLive index).freed.size =
      sweep.freed.size + (sweep.arena.reclaim epoch isLive index).1.toList.length := by
  unfold Sweep.visit
  split
  · next hreclaim => rw [hreclaim, Array.size_push, Option.toList_some, List.length_singleton]
  · next hreclaim => rw [hreclaim, Option.toList_none, List.length_nil, Nat.add_zero]

theorem Sweep.size_foldl_visit {issued : Nat} (epoch : Nat) (isLive : Handle → Bool)
    (sweep : Sweep) (hcoherent : sweep.arena.Coherent issued) (indices : List Nat) :
    (indices.foldl (Sweep.visit epoch isLive) sweep).freed.size +
        (indices.foldl (Sweep.visit epoch isLive) sweep).arena.size =
      sweep.freed.size + sweep.arena.size := by
  induction indices generalizing sweep with
  | nil => rfl
  | cons index rest ih =>
      -- one visit moves at most one node from the arena to the list
      have hsize := hcoherent.size_reclaim epoch isLive index
      have hvisited : (sweep.visit epoch isLive index).arena.Coherent issued := by
        rw [Sweep.arena_visit]
        exact hcoherent.reclaim epoch isLive index
      rw [List.foldl_cons, ih _ hvisited, Sweep.size_freed_visit, Sweep.arena_visit]
      omega

/-- What a sweep frees and what it leaves are what there was. -/
theorem Store.size_sweep {store : Store} {issued : Nat} (hcoherent : store.arena.Coherent issued)
    (batch epoch : Nat) (isLive : Handle → Bool) (start stop : Nat) :
    (store.sweep batch epoch isLive start stop).1.size +
      (store.sweep batch epoch isLive start stop).2.size = store.size := by
  have hsize := Sweep.size_foldl_visit epoch isLive ⟨store.arena, #[]⟩ hcoherent
    (List.range' start (stop - start))
  rw [← Sweep.foldl_visitSpan epoch isLive _ batch] at hsize
  exact hsize.trans (Nat.zero_add _)

namespace Books

/-- Without requests the steps of a sweep reclaim what the sweep of the store does. -/
theorem sweep_reclaims (books : Books) (epoch : Nat) (isLive : Handle → Bool) (sweep : Sweep)
    (harena : sweep.arena = books.store.arena) (hfreed : sweep.freed.size = books.freed)
    (indices : List Nat) :
    books.sweep epoch isLive (indices.map .reclaim) =
      let swept := indices.foldl (Sweep.visit epoch isLive) sweep
      { books with
        store := { books.store with arena := swept.arena }
        freed := swept.freed.size } := by
  induction indices generalizing books sweep with
  | nil =>
      simp only [List.foldl_nil, harena, hfreed]
      rfl
  | cons index rest ih =>
      refine ih (books.reclaim epoch isLive index) (sweep.visit epoch isLive index) ?_ ?_
      · rw [Sweep.arena_visit, harena]
        rfl
      · rw [Sweep.size_freed_visit, harena, hfreed]
        rfl

/-- **The sweep of a store is a sweep of its books**: slot after slot, and no requests. -/
theorem sweep_range (books : Books) (hfreed : books.freed = 0) (batch epoch : Nat)
    (isLive : Handle → Bool) (start stop : Nat) :
    let steps := (List.range' start (stop - start)).map SweepStep.reclaim
    (books.act (.sweep epoch isLive steps)).store =
        (books.store.sweep batch epoch isLive start stop).2 ∧
      (books.sweep epoch isLive steps).freed =
        (books.store.sweep batch epoch isLive start stop).1.size := by
  have hswept := books.sweep_reclaims epoch isLive ⟨books.store.arena, #[]⟩ rfl hfreed.symm
    (List.range' start (stop - start))
  dsimp only at hswept ⊢
  simp only [act, note, hswept, Store.sweep, Sweep.foldl_visitSpan, and_self]

end Books

end ExprHeap
