import ExprHeap.Store
import ExprHeap.Proofs.Requests

/-!
# Runs of the store

A `StoreCall` is any call that the store takes, with any arguments, and
`Store.performAll` makes calls one after the other; a call that is turned down
leaves the store as it is.  Every store that is reached from an empty one is
coherent.

A `SweepStep` is what can happen while a cycle sweeps: the sweep goes over a
slot, or somebody makes a request.  Neither ever harms what the barrier keeps
(`Arena.InCycle`).
-/

namespace ExprHeap

/-- A call of the store. -/
inductive StoreCall where
  | request (request : NodeRequest)
  | release (handle : Handle)
  /-- One slot is swept for a cycle with this epoch and this live set. -/
  | reclaim (epoch : Nat) (isLive : Handle → Bool) (index : Nat)
  | beginCycle
  | endCycle
  | clear

namespace Store

variable {store : Store}

/-- The store after a call, whatever the answer. -/
def perform (store : Store) : StoreCall → Store
  | .request (.allocate node) =>
    match store.allocate node with
    | .ok (_, store) => store
    | .error _ => store
  | .request (.shade handle) =>
    match store.shade handle with
    | .ok store => store
    | .error _ => store
  | .release handle =>
    match store.release handle with
    | .ok (_, store) => store
    | .error _ => store
  | .reclaim epoch isLive index =>
    match store.arena.reclaim epoch isLive index with
    | (some _, arena) => { store with arena := arena, frees := store.frees + 1 }
    | (none, arena) => { store with arena := arena }
  | .beginCycle => { store with arena := store.arena.beginCycle }
  | .endCycle => { store with arena := store.arena.endCycle }
  | .clear => store.clear.2

/-- The store after calls made one after the other. -/
def performAll (store : Store) (calls : List StoreCall) : Store :=
  calls.foldl perform store

@[simp] theorem performAll_nil (store : Store) : store.performAll [] = store := rfl

@[simp] theorem performAll_cons (store : Store) (call : StoreCall) (rest : List StoreCall) :
    store.performAll (call :: rest) = (store.perform call).performAll rest := rfl

theorem performAll_append (store : Store) (first second : List StoreCall) :
    store.performAll (first ++ second) = (store.performAll first).performAll second :=
  List.foldl_append

/-! ### What calls do to the arena -/

theorem arena_request (store : Store) (request : NodeRequest) :
    (store.perform (.request request)).arena = store.arena.apply request := by
  cases request with
  | allocate node =>
      simp only [perform, allocate, Arena.apply, Arena.request]
      rcases store.arena.allocate node with error | ⟨shared | fresh, arena⟩
      · rfl
      · rfl
      · rfl
  | shade handle =>
      simp only [perform, shade, Arena.apply]
      by_cases hcontains : store.arena.contains handle = true
      · simp only [hcontains, if_true]
      · simp only [hcontains]
        rfl

/-- Among the operands it is the first missing one that is named. -/
theorem allocate_of_find? {node : Node} (harity : node.children.length = node.op.arity)
    {child : Handle} (hfind : node.children.find? (!store.arena.contains ·) = some child) :
    store.allocate node = .error (.invalidHandle child.word) := by
  simp only [Store.allocate, Arena.allocate, harity, ne_eq, not_true, if_false, hfind]

/-- What the store answers with, the arena answers with. -/
theorem arena_allocate {node : Node} {allocation : Allocation} {after : Store}
    (hallocate : store.allocate node = .ok (allocation, after)) :
    store.arena.allocate node = .ok (allocation, after.arena) := by
  unfold Store.allocate at hallocate
  split at hallocate
  · rename_i hshared
    obtain ⟨rfl, rfl⟩ := Prod.mk.inj (Except.ok.inj hallocate)
    exact hshared
  · rename_i hfresh
    obtain ⟨rfl, rfl⟩ := Prod.mk.inj (Except.ok.inj hallocate)
    exact hfresh
  · cases hallocate

theorem arena_reclaim (store : Store) (epoch : Nat) (isLive : Handle → Bool) (index : Nat) :
    (store.perform (.reclaim epoch isLive index)).arena =
      (store.arena.reclaim epoch isLive index).2 := by
  simp only [perform]
  split
  · rename_i hreclaim
    rw [hreclaim]
  · rename_i hreclaim
    rw [hreclaim]

theorem arena_performAll_request (store : Store) (requests : List NodeRequest) :
    (store.performAll (requests.map .request)).arena = store.arena.applyAll requests := by
  induction requests generalizing store with
  | nil => rfl
  | cons request rest ih =>
      rw [List.map_cons, performAll_cons, ih, arena_request, Arena.applyAll_cons]

theorem coherent_perform {issued : Nat} (hcoherent : store.arena.Coherent issued)
    (call : StoreCall) : ∃ issued', (store.perform call).arena.Coherent issued' := by
  cases call with
  | request request =>
      rw [arena_request]
      exact hcoherent.apply request
  | release handle =>
      simp only [perform, Store.release, Arena.release]
      cases hentry : store.arena.table.entryOf? handle with
      | none => exact ⟨issued, hcoherent⟩
      | some entry => exact ⟨issued, hcoherent.remove hentry⟩
  | reclaim epoch isLive index =>
      rw [arena_reclaim]
      exact ⟨issued, hcoherent.reclaim epoch isLive index⟩
  | beginCycle => exact ⟨issued, hcoherent.beginCycle⟩
  | endCycle => exact ⟨issued, hcoherent.endCycle⟩
  | clear => exact ⟨_, hcoherent.clear⟩

theorem coherent_performAll {issued : Nat} (hcoherent : store.arena.Coherent issued)
    (calls : List StoreCall) : ∃ issued', (store.performAll calls).arena.Coherent issued' := by
  induction calls generalizing store issued with
  | nil => exact ⟨issued, hcoherent⟩
  | cons call rest ih =>
      obtain ⟨_, hperform⟩ := coherent_perform hcoherent call
      exact ih hperform

/-- Some run of calls leads from an empty store of this capacity to the store. -/
def Reached (capacity : Nat) (store : Store) : Prop :=
  ∃ calls, (Store.empty capacity).performAll calls = store

/-- **Every store that calls can reach is coherent.** -/
theorem Reached.coherent {capacity : Nat} (hreached : store.Reached capacity) :
    ∃ issued, store.arena.Coherent issued := by
  obtain ⟨calls, rfl⟩ := hreached
  exact coherent_performAll (Arena.coherent_empty capacity) calls

/-- The store when a cycle has begun and these requests have been made since. -/
def openCycle (store : Store) (early : List NodeRequest) : Store :=
  (store.perform .beginCycle).performAll (early.map .request)

theorem arena_openCycle (store : Store) (early : List NodeRequest) :
    (store.openCycle early).arena = store.arena.beginCycle.applyAll early :=
  arena_performAll_request _ early

end Store

/-! ## Cycles -/

namespace Arena

variable {arena : Arena} {epoch : Nat}

/-- A cycle with this epoch is active, and its barrier is closed. -/
structure InCycle (arena : Arena) (epoch : Nat) : Prop where
  coherent : ∃ issued, arena.Coherent issued
  epoch_eq : arena.epoch = epoch
  active : arena.cycleActive = true
  closed : arena.BarrierClosed

theorem Coherent.inCycle_beginCycle {issued : Nat} (hcoherent : arena.Coherent issued) :
    arena.beginCycle.InCycle (arena.epoch + 1) where
  coherent := ⟨issued, hcoherent.beginCycle⟩
  epoch_eq := rfl
  active := rfl
  closed := hcoherent.barrierClosed_beginCycle

theorem InCycle.apply (hcycle : arena.InCycle epoch) (request : NodeRequest) :
    (arena.apply request).InCycle epoch := by
  obtain ⟨_, hcoherent⟩ := hcycle.coherent
  exact
    { coherent := hcoherent.apply request
      epoch_eq := (apply_epoch arena request).trans hcycle.epoch_eq
      active := (apply_cycleActive arena request).trans hcycle.active
      closed := hcoherent.barrierClosed_apply hcycle.closed hcycle.active request }

theorem InCycle.applyAll (hcycle : arena.InCycle epoch) (requests : List NodeRequest) :
    (arena.applyAll requests).InCycle epoch := by
  induction requests generalizing arena with
  | nil => exact hcycle
  | cons request rest ih => exact ih (hcycle.apply request)

theorem InCycle.reclaim (hcycle : arena.InCycle epoch) (isLive : Handle → Bool) (index : Nat) :
    (arena.reclaim epoch isLive index).2.InCycle epoch := by
  obtain ⟨_, hcoherent⟩ := hcycle.coherent
  obtain rfl := hcycle.epoch_eq
  exact
    { coherent := ⟨_, hcoherent.reclaim _ isLive index⟩
      epoch_eq := reclaim_epoch arena _ isLive index
      active := (reclaim_cycleActive arena _ isLive index).trans hcycle.active
      closed := hcoherent.barrierClosed_reclaim hcycle.closed isLive index }

end Arena

/-- What can happen while a cycle sweeps. -/
inductive SweepStep where
  | request (request : NodeRequest)
  | reclaim (index : Nat)

namespace SweepStep

/-- The call that a step makes, in the cycle with this epoch and this live set. -/
def call (epoch : Nat) (isLive : Handle → Bool) : SweepStep → StoreCall
  | .request asked => .request asked
  | .reclaim index => .reclaim epoch isLive index

end SweepStep

namespace Store

/-- The store after steps of the sweep. -/
def sweepSteps (store : Store) (epoch : Nat) (isLive : Handle → Bool)
    (steps : List SweepStep) : Store :=
  store.performAll (steps.map (SweepStep.call epoch isLive))

variable {store : Store} {epoch : Nat} {isLive : Handle → Bool}

@[simp] theorem sweepSteps_nil (store : Store) : store.sweepSteps epoch isLive [] = store := rfl

theorem sweepSteps_append (store : Store) (first second : List SweepStep) :
    store.sweepSteps epoch isLive (first ++ second) =
      (store.sweepSteps epoch isLive first).sweepSteps epoch isLive second := by
  unfold sweepSteps
  rw [List.map_append, performAll_append]

theorem inCycle_perform (hcycle : store.arena.InCycle epoch) (step : SweepStep) :
    (store.perform (step.call epoch isLive)).arena.InCycle epoch := by
  cases step with
  | request request =>
      rw [SweepStep.call, arena_request]
      exact hcycle.apply request
  | reclaim index =>
      rw [SweepStep.call, arena_reclaim]
      exact hcycle.reclaim isLive index

theorem inCycle_sweepSteps (hcycle : store.arena.InCycle epoch) (isLive : Handle → Bool)
    (steps : List SweepStep) :
    (store.sweepSteps epoch isLive steps).arena.InCycle epoch := by
  induction steps generalizing store with
  | nil => exact hcycle
  | cons step rest ih => exact ih (inCycle_perform hcycle step)

/-- A node that is kept, and any node if the step is a request, is there after it. -/
theorem node?_perform_of_kept (hcycle : store.arena.InCycle epoch) (step : SweepStep)
    {handle : Handle} {node : Node} (hkept : store.arena.Kept handle)
    (hnode : store.arena.node? handle = some node) :
    (store.perform (step.call epoch isLive)).arena.node? handle = some node := by
  obtain ⟨_, hcoherent⟩ := hcycle.coherent
  -- a sweep takes away what carries no mark of this epoch, so the epochs have to be one
  obtain rfl := hcycle.epoch_eq
  cases step with
  | request request =>
      rw [SweepStep.call, arena_request]
      exact hcoherent.extends_apply request handle node hnode
  | reclaim index =>
      rw [SweepStep.call, arena_reclaim, hcoherent.node?_reclaim, if_neg]
      · exact hnode
      · exact fun h => hkept.not_reclaimable h.2

/-- **What the barrier keeps stays kept, whatever is swept and whatever is asked for.** -/
theorem kept_perform (hcycle : store.arena.InCycle epoch) (step : SweepStep) {handle : Handle}
    (hkept : store.arena.Kept handle) :
    (store.perform (step.call epoch isLive)).arena.Kept handle := by
  obtain ⟨_, hcoherent⟩ := hcycle.coherent
  obtain rfl := hcycle.epoch_eq
  cases step with
  | request request =>
      rw [SweepStep.call, arena_request]
      exact hcoherent.kept_of_apply hcycle.closed hcycle.active request hkept
  | reclaim index =>
      rw [SweepStep.call, arena_reclaim]
      exact hcoherent.kept_reclaim_iff.mpr hkept

theorem node?_sweepSteps_of_kept (hcycle : store.arena.InCycle epoch) (steps : List SweepStep)
    {handle : Handle} {node : Node} (hkept : store.arena.Kept handle)
    (hnode : store.arena.node? handle = some node) :
    (store.sweepSteps epoch isLive steps).arena.node? handle = some node := by
  induction steps generalizing store with
  | nil => exact hnode
  | cons step rest ih =>
      exact ih (inCycle_perform hcycle step) (kept_perform hcycle step hkept)
        (node?_perform_of_kept hcycle step hkept hnode)

end Store

end ExprHeap
