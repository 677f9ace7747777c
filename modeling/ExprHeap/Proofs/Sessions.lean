import ExprHeap.Heap.Collection
import ExprHeap.Heap.Construction
import ExprHeap.Proofs.Requests

/-!
# Sessions

A session is a heap together with the host memory that its regions lie in.  A
`Request` is what any thread may ask for at any time, also in the middle of a
collection; a request that is turned down changes nothing.

`Session.collect` is a collection with requests in its two gaps: some come when
the cycle has begun and the regions are still to be read, others when the live
set is complete and the sweep is still to come.  Without any it is
`Heap.collect`.  The sessions that are *reached* come about by requests and such
collections, in any order, from an empty heap and any memory.

Of the requests only `build` and `shade` concern the arena, each as one
`NodeRequest` at most (`arena_requestAll`).
-/

namespace ExprHeap

/-- A heap and the host memory. -/
structure Session where
  heap : Heap
  memory : Memory

/-- What a thread may ask for at any time. -/
inductive Request where
  | build (construction : Construction)
  | shade (handle : Handle)
  | register (base length : UInt64) (kind : RegionKind)
  | unregister (base length : UInt64)
  /-- Asks for the regions or for the counters. -/
  | settle
  | write (address word : UInt64)

namespace Session

/-- The nodes of a session. -/
def arena (session : Session) : Arena := session.heap.store.arena

/-! ## Requests -/

/-- The session after a request, whatever the answer. -/
def request (session : Session) : Request → Session
  | .build construction =>
    match session.heap.build construction with
    | .ok (_, heap) => { session with heap := heap }
    | .error _ => session
  | .shade handle =>
    match session.heap.shade handle with
    | .ok heap => { session with heap := heap }
    | .error _ => session
  | .register base length kind =>
    match session.heap.register base length kind with
    | .ok heap => { session with heap := heap }
    | .error _ => session
  | .unregister base length => { session with heap := session.heap.unregister base length }
  | .settle => { session with heap := session.heap.settle }
  | .write address word => { session with memory := session.memory.write address word }

/-- The session after requests made one after the other. -/
def requestAll (session : Session) (requests : List Request) : Session :=
  requests.foldl request session

@[simp] theorem requestAll_nil (session : Session) : session.requestAll [] = session := rfl

@[simp] theorem requestAll_cons (session : Session) (first : Request) (rest : List Request) :
    session.requestAll (first :: rest) = (session.request first).requestAll rest := rfl

/-- What a request asks of the store, if anything. -/
def nodeRequest? (session : Session) : Request → Option NodeRequest
  | .build construction =>
    match construction.toNode session.heap.store.widthOf with
    | .ok node => some (.allocate node)
    | .error _ => none
  | .shade handle => some (.shade handle)
  | .register _ _ _ => none
  | .unregister _ _ => none
  | .settle => none
  | .write _ _ => none

/-- What a run of requests asks of the store. -/
def nodeRequests (session : Session) : List Request → List NodeRequest
  | [] => []
  | first :: rest =>
    (session.nodeRequest? first).toList ++ (session.request first).nodeRequests rest

/-- Building a node concerns the store and the journal alone. -/
theorem exists_of_build {heap after : Heap} {construction : Construction} {handle : Handle}
    (hbuild : heap.build construction = .ok (handle, after)) :
    ∃ store journal, after = { heap with store := store, journal := journal } := by
  unfold Heap.build at hbuild
  split at hbuild
  · unfold Heap.allocate at hbuild
    split at hbuild
    · obtain ⟨-, rfl⟩ := Prod.mk.inj (Except.ok.inj hbuild)
      exact ⟨_, _, rfl⟩
    · cases hbuild
  · cases hbuild

/-- A request concerns the store, the registry, the journal and the memory alone. -/
theorem request_frame (session : Session) (asked : Request) :
    ∃ store registry journal memory, session.request asked =
      ⟨{ session.heap with store := store, registry := registry, journal := journal }, memory⟩ := by
  cases asked with
  | build construction =>
      simp only [request]
      cases hbuild : session.heap.build construction with
      | error error => exact ⟨_, _, _, _, rfl⟩
      | ok answer =>
          obtain ⟨store, journal, hafter⟩ := exists_of_build hbuild
          exact ⟨store, _, journal, _, congrArg (Session.mk · _) hafter⟩
  | shade handle =>
      simp only [request, Heap.shade]
      cases session.heap.store.shade handle with
      | error error => exact ⟨_, _, _, _, rfl⟩
      | ok store => exact ⟨store, _, _, _, rfl⟩
  | register base length kind =>
      simp only [request, Heap.register]
      cases session.heap.registry.register base length kind with
      | error error => exact ⟨_, _, _, _, rfl⟩
      | ok registry => exact ⟨_, registry, _, _, rfl⟩
  | unregister base length => exact ⟨_, _, _, _, rfl⟩
  | settle => exact ⟨_, _, _, _, rfl⟩
  | write address word => exact ⟨_, _, _, _, rfl⟩

theorem arena_request (session : Session) (request : Request) :
    (session.request request).arena =
      session.arena.applyAll (session.nodeRequest? request).toList := by
  cases request with
  | build construction =>
      simp only [Session.request, nodeRequest?, Heap.build]
      cases construction.toNode session.heap.store.widthOf with
      | error error => rfl
      | ok node =>
          simp only [Heap.allocate, Store.allocate, Option.toList_some, Arena.applyAll_cons,
            Arena.applyAll_nil, Arena.apply, Arena.request, arena]
          -- the counters tell a shared answer from a fresh one, the arena does not
          rcases session.heap.store.arena.allocate node with error | ⟨shared | fresh, arena⟩
          · rfl
          · rfl
          · rfl
  | shade handle =>
      simp only [Session.request, nodeRequest?, Heap.shade, Store.shade, Option.toList_some,
        Arena.applyAll_cons, Arena.applyAll_nil, Arena.apply_shade, arena]
      by_cases hcontains : session.heap.store.arena.contains handle = true
      · simp only [hcontains, if_true, Except.map]
      · simp only [hcontains]
        rfl
  | register base length kind =>
      simp only [Session.request, Heap.register]
      cases session.heap.registry.register base length kind <;> rfl
  | unregister base length => rfl
  | settle => rfl
  | write address word => rfl

theorem arena_requestAll (session : Session) (requests : List Request) :
    (session.requestAll requests).arena =
      session.arena.applyAll (session.nodeRequests requests) := by
  induction requests generalizing session with
  | nil => rfl
  | cons first rest ih =>
      rw [requestAll_cons, ih, arena_request, nodeRequests]
      exact List.foldl_append.symm

/-! ## Collections -/

/-- A collection, with requests that come before the regions are read and requests that come
before the sweep. -/
def collect (session : Session) (scanning scanned : List Request) (elapsed : UInt64) :
    Except Fault (Report × Session) :=
  let (cycle, heap) := session.heap.beginCycle
  let atScan := { session with heap := heap }.requestAll scanning
  match atScan.heap.scan atScan.memory with
  | .error fault => .error fault
  | .ok (live, stats, heap) =>
    let atSweep := { atScan with heap := heap }.requestAll scanned
    match atSweep.heap.finishCycle cycle live stats elapsed with
    | .error fault => .error fault
    | .ok (report, heap) => .ok (report, { atSweep with heap := heap })

/-- Without requests in its gaps this is a collection of the heap. -/
theorem collect_nil_nil (session : Session) (elapsed : UInt64) :
    session.collect [] [] elapsed =
      (session.heap.collect session.memory elapsed).map fun (report, heap) =>
        (report, { session with heap := heap }) := by
  simp only [collect, Heap.collect, requestAll_nil]
  cases session.heap.beginCycle.2.scan session.memory with
  | error fault => rfl
  | ok found =>
      obtain ⟨live, stats, heap⟩ := found
      dsimp only
      cases heap.finishCycle session.heap.beginCycle.1 live stats elapsed <;> rfl

/-- What a session can go through. -/
inductive Action where
  | request (request : Request)
  | collect (scanning scanned : List Request) (elapsed : UInt64)
  | maybeCollect (scanning scanned : List Request) (elapsed : UInt64)

/-- The session after an action. -/
def act (session : Session) : Action → Except Fault Session
  | .request asked => .ok (session.request asked)
  | .collect scanning scanned elapsed =>
    (session.collect scanning scanned elapsed).map Prod.snd
  | .maybeCollect scanning scanned elapsed =>
    if session.heap.collectionDue then
      (session.collect scanning scanned elapsed).map Prod.snd
    else .ok session

/-- An action is a request or a collection, or it does nothing. -/
theorem act_cases {session next : Session} {action : Action}
    (hact : session.act action = .ok next) :
    next = session ∨ (∃ asked, next = session.request asked) ∨
      ∃ scanning scanned elapsed report,
        session.collect scanning scanned elapsed = .ok (report, next) := by
  have hcollected : ∀ scanning scanned elapsed,
      (session.collect scanning scanned elapsed).map Prod.snd = .ok next →
      ∃ report, session.collect scanning scanned elapsed = .ok (report, next) := by
    intro scanning scanned elapsed hnext
    cases hcollect : session.collect scanning scanned elapsed with
    | error fault =>
        rw [hcollect] at hnext
        cases hnext
    | ok answer =>
        rw [hcollect] at hnext
        obtain rfl := Except.ok.inj hnext
        exact ⟨answer.1, rfl⟩
  cases action with
  | request asked => exact .inr (.inl ⟨asked, (Except.ok.inj hact).symm⟩)
  | collect scanning scanned elapsed =>
      exact .inr (.inr ⟨scanning, scanned, elapsed, hcollected _ _ _ hact⟩)
  | maybeCollect scanning scanned elapsed =>
      simp only [act] at hact
      split at hact
      · exact .inr (.inr ⟨scanning, scanned, elapsed, hcollected _ _ _ hact⟩)
      · exact .inl (Except.ok.inj hact).symm

/-- The session is reached from an empty heap and some memory. -/
inductive Reached (config : Config) : Session → Prop
  | start (memory : Memory) : Reached config ⟨.empty config, memory⟩
  | act {session next : Session} (action : Action) : Reached config session →
      session.act action = .ok next → Reached config next

end Session

end ExprHeap
