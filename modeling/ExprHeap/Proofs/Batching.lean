import ExprHeap.Proofs.FaultFreedom
import ExprHeap.Proofs.Registration
import ExprHeap.Proofs.Representation
import ExprHeap.Proofs.Unbatched

/-!
# Batches do not show

Two heaps whose settings differ in the sizes of the batches only are given the same turns: calls,
collections with calls in their gaps, scopes with collections that wait for their end.  Both give
the same answers to every one, whatever the clocks say that the collections took, but for what
they answer about the settings themselves and about the average duration
(`Session.batches_never_show`).

## Strategy

A heap and its plain heap stay alike through every turn (`Session.plain_take`), so both runs are
told by one run of the plain heap that the two have in common.  No turn ends with a fault, since
every session of a run is at rest (`Session.Orderly`).

That the loops go over batches with numbers of 64 bits makes no difference either: a batch begins
below the end of its range and, unless it is the first, with a whole batch behind it, so the
addition that finds its end does not exceed 64 bits (`start_add_lt`), if the range is not
longer than `2 ^ 63`.  A region is shorter because its slots can be addressed, and the slots of
the store are at most `2 ^ 32`, since all of them have been issued.
-/

namespace ExprHeap

/-! ### Calls and turns -/

/-- What can be asked of a heap and of the memory at any time. -/
inductive Call where
  | build (construction : Construction)
  | shade (handle : Handle)
  | register (base length : UInt64) (kind : RegionKind)
  | unregister (base length : UInt64)
  | regions
  | metrics
  | write (address word : UInt64)
  | read (address : UInt64)
  | node (handle : Handle)
  | childrenOf (handle : Handle)
  | widthOf (handle : Handle)
  | isAllocated (handle : Handle)
  | resolve (word : UInt64)
  | size
  | phase
  | config

/-- The request that a call makes, if it changes anything. -/
def Call.request? : Call → Option Request
  | .build construction => some (.build construction)
  | .shade handle => some (.shade handle)
  | .register base length kind => some (.register base length kind)
  | .unregister base length => some (.unregister base length)
  | .regions => some .settle
  | .metrics => some .settle
  | .write address word => some (.write address word)
  | _ => none

/-- What is answered to a call. -/
inductive Answer where
  | done
  | failed (error : HeapError)
  | handle (handle : Handle)
  | regions (regions : List Region)
  | metrics (snapshot : Snapshot)
  | word (word : UInt64)
  | node (node : Node)
  | children (children : List Handle)
  | width (width : UInt32)
  | allocated (allocated : Bool)
  | resolved (handle : Option Handle)
  | size (size : Nat)
  | phase (phase : Phase)
  | config (settings : Config)

/-- An answer without what it says of batches and of the time that collections took. -/
def Answer.plain : Answer → Answer
  | .metrics snapshot => .metrics { snapshot with averageTime := 0 }
  | .config settings => .config settings.plain
  | answer => answer

/-- The answer that gives a result. -/
def Answer.ofResult {α : Type} (answer : α → Answer) : Except HeapError α → Answer
  | .ok value => answer value
  | .error error => .failed error

/-- What can happen to a session while no collection is under way. -/
inductive Turn where
  | call (call : Call)
  /-- A collection, with the calls that come before the regions are read and those that come
  before the sweep. -/
  | collect (scanning scanned : List Call)
  | maybeCollect (scanning scanned : List Call)
  /-- Another thread asks for a collection while a scope is open. -/
  | requestCollection
  /-- Asks whether a collection waits for the scope to close. -/
  | yieldRequested
  /-- A scope closes, and the collection that waits for that, if any, runs. -/
  | closeScope (scanning scanned : List Call)

/-- What is answered to a turn. -/
inductive Reply where
  | answered (answer : Answer)
  | collected (scanning scanned : List Answer) (report : Report)
  | notCollected
  | requested
  | yielding (waiting : Bool)

/-- A reply without what it says of batches and of the time that collections took. -/
def Reply.plain : Reply → Reply
  | .answered answer => .answered answer.plain
  | .collected scanning scanned report =>
    .collected (scanning.map Answer.plain) (scanned.map Answer.plain) report
  | reply => reply

namespace Session

/-- The answer to a call. -/
def reply (session : Session) : Call → Answer
  | .build construction =>
    .ofResult (.handle ·.1) (session.heap.build construction)
  | .shade handle => .ofResult (fun _ => .done) (session.heap.shade handle)
  | .register base length kind =>
    .ofResult (fun _ => .done) (session.heap.register base length kind)
  | .unregister _ _ => .done
  | .regions => .regions session.heap.regions.1
  | .metrics => .metrics session.heap.snapshot.1
  | .write _ _ => .done
  | .read address => .word (session.memory.read address)
  | .node handle => .ofResult .node (session.heap.store.node handle)
  | .childrenOf handle => .ofResult .children (session.heap.store.childrenOf handle)
  | .widthOf handle => .ofResult .width (session.heap.store.widthOf handle)
  | .isAllocated handle => .allocated (session.arena.contains handle)
  | .resolve word => .resolved (session.arena.resolve? word)
  | .size => .size session.heap.size
  | .phase => .phase session.heap.metrics.phase
  | .config => .config session.heap.config

/-- The answer to a call and the session after it. -/
def answer (session : Session) (call : Call) : Answer × Session :=
  (session.reply call, session.requestAll call.request?.toList)

/-- The end of a collection, with what has been answered in its gaps. -/
def finish (session : Session) (cycle : Cycle) (live : LiveSet) (stats : ScanStats)
    (early late : List Answer) (elapsed : UInt64) : Except Fault (Reply × Session) :=
  (session.heap.finishCycle cycle live stats elapsed).map fun (report, heap) =>
    (.collected early late report, { session with heap := heap })

/-- A collection with calls in its gaps. -/
def cycle (session : Session) (scanning scanned : List Call) (elapsed : UInt64) :
    Except Fault (Reply × Session) :=
  let atScan := converse answer session.begun scanning
  (atScan.2.heap.scan atScan.2.memory).bind fun (live, stats, heap) =>
    let atSweep := converse answer { atScan.2 with heap := heap } scanned
    atSweep.2.finish session.heap.beginCycle.1 live stats atScan.1 atSweep.1 elapsed

/-- A turn, in which a collection takes `elapsed` microseconds. -/
def take (session : Session) (elapsed : UInt64) : Turn → Except Fault (Reply × Session)
  | .call call => .ok (.answered (session.answer call).1, (session.answer call).2)
  | .collect scanning scanned => session.cycle scanning scanned elapsed
  | .maybeCollect scanning scanned =>
    if session.heap.collectionDue then session.cycle scanning scanned elapsed
    else .ok (.notCollected, session)
  | .requestCollection =>
    .ok (.requested, { session with heap := session.heap.requestCollection })
  | .yieldRequested => .ok (.yielding session.heap.collectionWaiting, session)
  | .closeScope scanning scanned =>
    if session.heap.collectionWaiting then session.cycle scanning scanned elapsed
    else .ok (.notCollected, session)

/-- Turns one after the other.  The clock says how long a collection takes, by the number of
turns that are still to come. -/
def run (clock : Nat → UInt64) (session : Session) :
    List Turn → Except Fault (List Reply × Session)
  | [] => .ok ([], session)
  | turn :: rest =>
    match session.take (clock rest.length) turn with
    | .error fault => .error fault
    | .ok (reply, next) =>
      match run clock next rest with
      | .error fault => .error fault
      | .ok (replies, final) => .ok (reply :: replies, final)

/-! ### Plain sessions go through the same -/

theorem plain_reply (session : Session) (call : Call) :
    (session.plain.reply call).plain = (session.reply call).plain := by
  cases call with
  | build construction =>
      simp only [reply, plain, Heap.plain_build]
      cases session.heap.build construction with
      | error error => rfl
      | ok answer => rfl
  | shade handle =>
      simp only [reply, plain, Heap.plain_shade]
      cases session.heap.shade handle with
      | error error => rfl
      | ok heap => rfl
  | register base length kind =>
      simp only [reply, plain, Heap.plain_register]
      cases session.heap.register base length kind with
      | error error => rfl
      | ok heap => rfl
  | unregister base length => rfl
  | regions => rfl
  | metrics => rfl
  | write address word => rfl
  | read address => rfl
  | node handle => rfl
  | childrenOf handle => rfl
  | widthOf handle => rfl
  | isAllocated handle => rfl
  | resolve word => rfl
  | size => rfl
  | phase => rfl
  | config => rfl

theorem plain_converse (session : Session) (calls : List Call) :
    (converse answer session.plain calls).1.map Answer.plain =
        (converse answer session calls).1.map Answer.plain ∧
      (converse answer session.plain calls).2 = (converse answer session calls).2.plain := by
  -- each call leaves another session, so the claim is about all of them
  induction calls generalizing session with
  | nil => exact ⟨rfl, rfl⟩
  | cons call rest ih =>
      have hnext : (session.plain.answer call).2 = (session.answer call).2.plain :=
        (plain_requestAll session _).symm
      obtain ⟨hanswers, hfinal⟩ := ih (session.answer call).2
      rw [← hnext] at hanswers hfinal
      exact ⟨congrArg₂ List.cons (plain_reply session call) hanswers, hfinal⟩

/-- What can be seen of a turn. -/
def seen (outcome : Except Fault (Reply × Session)) : Except Fault (Reply × Session) :=
  outcome.map fun (reply, session) => (reply.plain, session.plain)

theorem seen_finish (session : Session) (cycle : Cycle) (live : LiveSet) (stats : ScanStats)
    (early late : List Answer) (elapsed : UInt64) :
    seen (session.finish cycle live stats early late elapsed) =
      ((session.heap.finishCycle cycle live stats elapsed).map
        fun (report, heap) => (report, heap.plain)).map fun (report, heap) =>
          (.collected (early.map Answer.plain) (late.map Answer.plain) report,
            { session with heap := heap }) := by
  unfold seen finish
  cases session.heap.finishCycle cycle live stats elapsed with
  | error fault => rfl
  | ok answer => rfl

theorem seen_finish_plain (session : Session) (cycle : Cycle) (live : LiveSet)
    (stats : ScanStats) {early late plainEarly plainLate : List Answer}
    (hearly : plainEarly.map Answer.plain = early.map Answer.plain)
    (hlate : plainLate.map Answer.plain = late.map Answer.plain) (elapsed other : UInt64) :
    seen (session.plain.finish cycle live stats plainEarly plainLate elapsed) =
      seen (session.finish cycle live stats early late other) := by
  have hfinish := Heap.plain_finishCycle session.heap cycle live stats other elapsed
  rw [seen_finish, seen_finish, hearly, hlate, ← hfinish]
  rfl

/-- **A collection of the plain session answers the same**, with whatever clock. -/
theorem seen_cycle_plain (session : Session) (scanning scanned : List Call)
    (elapsed other : UInt64) :
    seen (session.plain.cycle scanning scanned elapsed) =
      seen (session.cycle scanning scanned other) := by
  have hearly : (converse answer session.plain.begun scanning).1.map Answer.plain =
      (converse answer session.begun scanning).1.map Answer.plain :=
    (plain_converse session.begun scanning).1
  have hatScan : (converse answer session.plain.begun scanning).2 =
      (converse answer session.begun scanning).2.plain :=
    (plain_converse session.begun scanning).2
  unfold cycle
  dsimp only
  generalize converse answer session.plain.begun scanning = plainScan at hearly hatScan ⊢
  generalize converse answer session.begun scanning = atScan at hearly hatScan ⊢
  -- a scan finds the same whatever the size of its chunks
  have hscan : plainScan.2.heap.scan plainScan.2.memory =
      (atScan.2.heap.scan atScan.2.memory).map
        fun (live, stats, heap) => (live, stats, heap.plain) := by
    rw [hatScan]
    exact Heap.plain_scan _ _
  rw [hscan]
  cases atScan.2.heap.scan atScan.2.memory with
  | error fault => rfl
  | ok found =>
      obtain ⟨live, stats, heap⟩ := found
      have hafter : ({ plainScan.2 with heap := heap.plain } : Session) =
          ({ atScan.2 with heap := heap } : Session).plain := by
        rw [hatScan]
        rfl
      obtain ⟨hlate, hatSweep⟩ := plain_converse { atScan.2 with heap := heap } scanned
      rw [← hafter] at hlate hatSweep
      have hfinish := seen_finish_plain (converse answer { atScan.2 with heap := heap } scanned).2
        session.heap.beginCycle.1 live stats hearly hlate elapsed other
      rw [← hatSweep] at hfinish
      exact hfinish

theorem seen_take_plain (session : Session) (turn : Turn) (elapsed other : UInt64) :
    seen (session.plain.take elapsed turn) = seen (session.take other turn) := by
  cases turn with
  | call call =>
      have hreply := plain_reply session call
      have hnext := plain_requestAll session call.request?.toList
      simp only [take, answer, seen, Except.map, Reply.plain, hreply, ← hnext]
      rfl
  | collect scanning scanned => exact seen_cycle_plain session scanning scanned elapsed other
  -- whether to collect is decided first, from what a plain heap keeps
  | maybeCollect scanning scanned =>
      have hdue : session.plain.heap.collectionDue = session.heap.collectionDue :=
        Heap.plain_collectionDue session.heap
      simp only [take, hdue]
      split
      · exact seen_cycle_plain session scanning scanned elapsed other
      · rfl
  | requestCollection => rfl
  | yieldRequested => rfl
  | closeScope scanning scanned =>
      have hwaiting : session.plain.heap.collectionWaiting = session.heap.collectionWaiting := rfl
      simp only [take, hwaiting]
      split
      · exact seen_cycle_plain session scanning scanned elapsed other
      · rfl

/-- Sessions with the same plain session answer the same. -/
theorem seen_take_congr {first second : Session} (hplain : first.plain = second.plain)
    (turn : Turn) (elapsed other : UInt64) :
    seen (first.take elapsed turn) = seen (second.take other turn) := by
  rw [← seen_take_plain first turn 0 elapsed, ← seen_take_plain second turn 0 other, hplain]

end Session

/-! ### Every turn succeeds -/

namespace Arena.Whole

variable {arena : Arena}

theorem applyAll (hwhole : arena.Whole) (requests : List NodeRequest) :
    (arena.applyAll requests).Whole := by
  induction requests generalizing arena with
  | nil => exact hwhole
  | cons first rest ih =>
      refine ih ?_
      cases first with
      | allocate node => exact hwhole.request node
      | shade handle =>
          rw [Arena.apply_shade]
          split
          · exact hwhole.shade handle
          · exact hwhole

theorem reclaimAll (hwhole : arena.Whole) (epoch : Nat) (isLive : Handle → Bool)
    (indices : List Nat) : (arena.reclaimAll epoch isLive indices).Whole := by
  induction indices generalizing arena with
  | nil => exact hwhole
  | cons index rest ih => exact ih (hwhole.call (.reclaim epoch isLive index))

end Arena.Whole

namespace Session

variable {config : Config} {session : Session}

/-- What holds between its turns of a session with these settings. -/
structure Orderly (config : Config) (session : Session) : Prop where
  rest : session.AtRest
  whole : session.arena.Whole
  sane : session.heap.registry.Sane
  config_eq : session.heap.config = config

theorem sane_request (hsane : session.heap.registry.Sane) (asked : Request) :
    (session.request asked).heap.registry.Sane := by
  cases asked with
  | build construction =>
      simp only [request]
      cases hbuild : session.heap.build construction with
      | error error => exact hsane
      | ok answer =>
          obtain ⟨_, _, hafter⟩ := exists_of_build hbuild
          dsimp only
          rw [hafter]
          exact hsane
  | shade handle =>
      simp only [request, Heap.shade]
      cases session.heap.store.shade handle with
      | error error => exact hsane
      | ok store => exact hsane
  -- only the next three change the registry
  | register base length kind =>
      have hanswer := hsane.answer (.register base length kind)
      simp only [Registry.answer] at hanswer
      simp only [request, Heap.register]
      cases hregister : session.heap.registry.register base length kind with
      | error error => exact hsane
      | ok registry =>
          rw [hregister] at hanswer
          exact hanswer
  | unregister base length => exact (hsane.answer (.unregister base length)).answer .regions
  | settle => exact hsane.answer .regions
  | write address word => exact hsane

theorem sane_requestAll (hsane : session.heap.registry.Sane) (requests : List Request) :
    (session.requestAll requests).heap.registry.Sane := by
  induction requests generalizing session with
  | nil => exact hsane
  | cons first rest ih => exact ih (sane_request hsane first)

theorem AtRest.requestAll (hrest : session.AtRest) (requests : List Request) :
    (session.requestAll requests).AtRest := by
  induction requests generalizing session with
  | nil => exact hrest
  | cons first rest ih => exact ih (hrest.request first)

theorem config_requestAll (session : Session) (requests : List Request) :
    (session.requestAll requests).heap.config = session.heap.config := by
  induction requests generalizing session with
  | nil => rfl
  | cons first rest ih =>
      obtain ⟨_, _, _, _, hframe⟩ := session.request_frame first
      rw [requestAll_cons, ih, hframe]

theorem orderly_start (config : Config) (memory : Memory) :
    Orderly config ⟨.empty config, memory⟩ where
  rest := atRest_start config memory
  whole := Arena.whole_empty _
  sane := Registry.sane_empty
  config_eq := rfl

theorem Orderly.requestAll (horderly : session.Orderly config) (requests : List Request) :
    (session.requestAll requests).Orderly config where
  rest := horderly.rest.requestAll requests
  whole := arena_requestAll session requests ▸ horderly.whole.applyAll _
  sane := sane_requestAll horderly.sane requests
  config_eq := (config_requestAll session requests).trans horderly.config_eq

/-- The slots of the store are no more than handles can tell apart. -/
theorem Orderly.size_le (horderly : session.Orderly config) :
    session.arena.table.size ≤ Handle.indexBound :=
  Arena.Coherent.issued_le horderly.whole

/-- What the end of a cycle does to the slots, and that it leaves the regions and the settings. -/
theorem arena_of_finishCycle {heap final : Heap} {cycle : Cycle} {live : LiveSet}
    {stats : ScanStats} {elapsed : UInt64} {report : Report}
    (hfinish : heap.finishCycle cycle live stats elapsed = .ok (report, final)) :
    final.store.arena = (heap.store.arena.reclaimAll cycle.epoch live.contains
      (List.range' 0 (cycle.highWater - 0))).endCycle ∧
      final.registry = heap.registry ∧ final.config = heap.config := by
  obtain ⟨-, -, _, rfl⟩ := Heap.exists_of_finishCycle hfinish
  rw [← heap.store.arena_sweep heap.config.reclaimBatch cycle.epoch live.contains 0]
  exact ⟨rfl, rfl, rfl⟩

theorem Orderly.collect (horderly : session.Orderly config) (scanning scanned : List Request)
    {elapsed : UInt64} {report : Report} {final : Session}
    (hcollect : session.collect scanning scanned elapsed = .ok (report, final)) :
    final.Orderly config := by
  obtain ⟨_, after, hsucceeds, hrest⟩ := horderly.rest.collect scanning scanned elapsed
  obtain ⟨-, rfl⟩ := Prod.mk.inj (Except.ok.inj (hsucceeds.symm.trans hcollect))
  obtain ⟨live, stats, heap, swept, hscan, hfinish, rfl⟩ := exists_of_collect hcollect
  obtain ⟨harena, hregistry, hconfig⟩ := arena_of_finishCycle hfinish
  -- what the sweep meets is the arena of the beginning with the requests of both gaps
  have hatSweep : ((session.afterScan scanning heap).requestAll scanned).arena.Whole := by
    rw [horderly.rest.sound.arena_afterScan hscan, arena_atSweep]
    exact Arena.Whole.applyAll (Arena.Coherent.beginCycle horderly.whole) _
  -- the registry is changed by requests and settled by the scan; the sweep leaves it
  have hbegun : session.begun.heap.registry.Sane := horderly.sane
  have hatScan : (session.atScan scanning).heap.registry.Sane := sane_requestAll hbegun scanning
  obtain ⟨-, -, hregistryScan, hconfigScan⟩ :=
    eq_of_withoutJournal_eq (horderly.rest.sound.withoutJournal_afterScan hscan)
  have hafterScan : (session.afterScan scanning heap).heap.registry.Sane := by
    rw [hregistryScan]
    exact sane_request hatScan .settle
  refine
    { rest := hrest
      whole := ?_
      sane := ?_
      config_eq := ?_ }
  · show swept.store.arena.Whole
    rw [harena]
    exact Arena.Coherent.endCycle (hatSweep.reclaimAll _ _ _)
  · show swept.registry.Sane
    rw [hregistry]
    exact sane_requestAll hafterScan scanned
  · show swept.config = config
    rw [hconfig, config_requestAll, hconfigScan]
    exact (config_requestAll session.begun scanning).trans horderly.config_eq

/-- The requests that calls make. -/
def requestsOf (calls : List Call) : List Request := calls.filterMap Call.request?

/-- Calls do to a session what their requests do. -/
theorem converse_snd (session : Session) (calls : List Call) :
    (converse answer session calls).2 = session.requestAll (requestsOf calls) := by
  induction calls generalizing session with
  | nil => rfl
  | cons call rest ih =>
      have hnext := ih (session.answer call).2
      rw [converse, hnext, answer, requestsOf, requestsOf, List.filterMap_cons]
      cases call.request? with
      | none => rfl
      | some asked => rfl

/-- A collection with calls in its gaps is one with their requests, and answers the calls. -/
theorem cycle_of_collect {scanning scanned : List Call} {elapsed : UInt64} {report : Report}
    {final : Session} (hcollect : session.collect (requestsOf scanning) (requestsOf scanned)
      elapsed = .ok (report, final)) :
    ∃ early late, session.cycle scanning scanned elapsed =
      .ok (.collected early late report, final) := by
  obtain ⟨live, stats, heap, swept, hscan, hfinish, rfl⟩ := exists_of_collect hcollect
  let atScan := converse answer session.begun scanning
  have hatScan : atScan.2 = session.atScan (requestsOf scanning) := converse_snd _ _
  have hread : atScan.2.heap.scan atScan.2.memory = .ok (live, stats, heap) := by
    rw [hatScan]
    exact hscan
  -- past the scan the replies no longer matter, only the session that the calls have left
  have hafter : ({ atScan.2 with heap := heap } : Session) =
      session.afterScan (requestsOf scanning) heap := by
    rw [hatScan]
    rfl
  have hatSweep := converse_snd (session.afterScan (requestsOf scanning) heap) scanned
  refine ⟨atScan.1, (converse answer (session.afterScan (requestsOf scanning) heap) scanned).1,
    (bind_eq_of_ok hread _).trans ?_⟩
  show Session.finish (converse answer { atScan.2 with heap := heap } scanned).2 _ live stats
    atScan.1 (converse answer { atScan.2 with heap := heap } scanned).1 elapsed = _
  rw [hafter, Session.finish, hatSweep, hfinish]
  rfl

theorem Orderly.cycle (horderly : session.Orderly config) (scanning scanned : List Call)
    (elapsed : UInt64) :
    ∃ reply final, session.cycle scanning scanned elapsed = .ok (reply, final) ∧
      final.Orderly config := by
  obtain ⟨report, final, hcollect, -⟩ :=
    horderly.rest.collect (requestsOf scanning) (requestsOf scanned) elapsed
  obtain ⟨early, late, hcycle⟩ := cycle_of_collect hcollect
  exact ⟨.collected early late report, final, hcycle, horderly.collect _ _ hcollect⟩

theorem Orderly.take (horderly : session.Orderly config) (elapsed : UInt64) (turn : Turn) :
    ∃ reply next, session.take elapsed turn = .ok (reply, next) ∧ next.Orderly config := by
  cases turn with
  | call call => exact ⟨_, _, rfl, horderly.requestAll _⟩
  | collect scanning scanned => exact horderly.cycle scanning scanned elapsed
  | maybeCollect scanning scanned =>
      simp only [Session.take]
      split
      · exact horderly.cycle scanning scanned elapsed
      · exact ⟨_, _, rfl, horderly⟩
  | requestCollection =>
      refine ⟨_, _, rfl, ?_⟩
      exact
        { rest := ⟨⟨horderly.rest.sound.coherent, horderly.rest.sound.gapless,
            horderly.rest.sound.idle⟩, horderly.rest.phase⟩
          whole := horderly.whole
          sane := horderly.sane
          config_eq := horderly.config_eq }
  | yieldRequested => exact ⟨_, _, rfl, horderly⟩
  | closeScope scanning scanned =>
      simp only [Session.take]
      split
      · exact horderly.cycle scanning scanned elapsed
      · exact ⟨_, _, rfl, horderly⟩

/-! ### Two runs -/

theorem run_cons {clock : Nat → UInt64} {turn : Turn} {rest : List Turn} {reply : Reply}
    {replies : List Reply} {next final : Session}
    (htake : session.take (clock rest.length) turn = .ok (reply, next))
    (hrun : run clock next rest = .ok (replies, final)) :
    run clock session (turn :: rest) = .ok (reply :: replies, final) := by
  simp only [run, htake, hrun]

/-- **Sessions with the same plain session go through the same turns alike.** -/
theorem Orderly.run_alike {other : Config} {first second : Session}
    (hfirst : first.Orderly config) (hsecond : second.Orderly other)
    (hplain : first.plain = second.plain)
    (clock otherClock : Nat → UInt64) (turns : List Turn) :
    ∃ replies final others otherFinal, run clock first turns = .ok (replies, final) ∧
      run otherClock second turns = .ok (others, otherFinal) ∧
      replies.map Reply.plain = others.map Reply.plain ∧ final.plain = otherFinal.plain ∧
      final.Orderly config := by
  -- the two runs stay equal in plain, and each keeps its own session in order
  induction turns generalizing first second with
  | nil => exact ⟨[], first, [], second, rfl, rfl, rfl, hplain, hfirst⟩
  | cons turn rest ih =>
      obtain ⟨reply, next, htake, hnext⟩ := hfirst.take (clock rest.length) turn
      obtain ⟨other, otherNext, hotherTake, hotherNext⟩ :=
        hsecond.take (otherClock rest.length) turn
      have hseen := seen_take_congr hplain turn (clock rest.length) (otherClock rest.length)
      rw [htake, hotherTake] at hseen
      obtain ⟨hreply, hplainNext⟩ := Prod.mk.inj (Except.ok.inj hseen)
      obtain ⟨replies, final, others, otherFinal, hrun, hotherRun, hreplies, hfinal, horderly⟩ :=
        ih hnext hotherNext hplainNext
      exact ⟨reply :: replies, final, other :: others, otherFinal, run_cons htake hrun,
        run_cons hotherTake hotherRun, congrArg₂ List.cons hreply hreplies, hfinal, horderly⟩

/-- What is left at the end is told by the plain heap. -/
theorem shutdown_congr {first second : Session} (hplain : first.plain = second.plain) :
    first.heap.shutdown.1 = second.heap.shutdown.1 ∧
      first.heap.journal = second.heap.journal := by
  have hshutdown := congrArg (fun session => session.heap.shutdown.1) hplain
  have hjournal := congrArg (fun session => session.heap.journal) hplain
  exact ⟨hshutdown, hjournal⟩

end Session

/-! ### The ends of batches -/

/-- Settings with chunks and batches of these sizes. -/
def Config.batched (config : Config) (chunk batch : UInt64) : Config :=
  { config with scanChunk := chunk.toNat, reclaimBatch := batch.toNat }

/-- A batch begins within its range, and has a whole batch behind it unless it is the first. -/
theorem start_of_mem_spans {batch start stop : Nat} {span : Span}
    (hspan : span ∈ spans batch start stop) :
    span.start < stop ∧ (span.start = start ∨ start + max batch 1 ≤ span.start) := by
  fun_induction spans batch start stop with
  | case1 start hlt ih =>
      rcases List.mem_cons.mp hspan with rfl | hrest
      · exact ⟨hlt, .inl rfl⟩
      · obtain ⟨hwithin, hbegins⟩ := ih hrest
        -- the spans of the rest begin at the end of this one, a whole batch further on
        unfold batchEnd at hbegins
        exact ⟨hwithin, .inr (by omega)⟩
  | case2 start hge => cases hspan

/-- **The addition that finds the end of a batch fits 64 bits.** -/
theorem start_add_lt {batch length : Nat} {span : Span} (hbatch : batch < 2 ^ 64)
    (hlength : length ≤ 2 ^ 63) (hspan : span ∈ spans batch 0 length) :
    span.start + max batch 1 < 2 ^ 64 := by
  obtain ⟨hwithin, hfirst | hlater⟩ := start_of_mem_spans hspan
  · omega
  · omega

namespace Session

variable {config : Config} {session : Session}

/-- No addition to an index exceeds 64 bits while a collection with these calls before its scan
reads the regions in chunks and sweeps in batches. -/
structure LoopsFit (chunk batch : Nat) (session : Session) (scanning : List Call) : Prop where
  scan : ∀ region ∈ (converse answer session.begun scanning).2.heap.snapshotRegions,
    ∀ span ∈ spans chunk 0 region.length.toNat, span.start + max chunk 1 < 2 ^ 64
  sweep : ∀ span ∈ spans batch 0 session.heap.beginCycle.1.highWater,
    span.start + max batch 1 < 2 ^ 64

theorem Orderly.loopsFit (horderly : session.Orderly config) {chunk batch : Nat}
    (hchunk : chunk < 2 ^ 64) (hbatch : batch < 2 ^ 64) (scanning : List Call) :
    session.LoopsFit chunk batch scanning where
  scan region hregion span hspan := by
    have hbegun : session.begun.heap.registry.Sane := horderly.sane
    rw [converse_snd] at hregion
    obtain ⟨-, -, hbound⟩ := (sane_requestAll hbegun _).placeable region hregion
    exact start_add_lt hchunk (by omega) hspan
  sweep span hspan := by
    have hsize : session.heap.beginCycle.1.highWater ≤ 2 ^ 32 := horderly.size_le
    exact start_add_lt hbatch (by omega) hspan

/-- **The sizes of the batches never show.**  Two heaps whose settings differ in these sizes only
go through the same turns, with whatever memory and whatever their clocks say, without a fault,
and answer alike to every one, but for the sizes themselves and for average durations; they keep
the same journal, and shutting them down leaves the same.  Wherever the turns have led, no
addition to an index exceeds 64 bits in a collection that comes next, whatever is called in it
before it reads the regions. -/
theorem batches_never_show (config : Config) (chunk batch otherChunk otherBatch : UInt64)
    (memory : Memory) (clock otherClock : Nat → UInt64) (turns : List Turn) :
    ∃ replies final others otherFinal,
      run clock ⟨.empty (config.batched chunk batch), memory⟩ turns = .ok (replies, final) ∧
      run otherClock ⟨.empty (config.batched otherChunk otherBatch), memory⟩ turns =
        .ok (others, otherFinal) ∧
      replies.map Reply.plain = others.map Reply.plain ∧
      final.heap.journal = otherFinal.heap.journal ∧
      final.heap.shutdown.1 = otherFinal.heap.shutdown.1 ∧
      final.heap.config = config.batched chunk batch ∧
      ∀ scanning, final.LoopsFit chunk.toNat batch.toNat scanning := by
  -- the settings differ in the batches only, and those are what a plain session forgets
  have hplain : plain ⟨.empty (config.batched chunk batch), memory⟩ =
      plain ⟨.empty (config.batched otherChunk otherBatch), memory⟩ := rfl
  obtain ⟨replies, final, others, otherFinal, hrun, hotherRun, hreplies, hfinal, horderly⟩ :=
    (orderly_start (config.batched chunk batch) memory).run_alike
      (orderly_start (config.batched otherChunk otherBatch) memory) hplain clock otherClock turns
  obtain ⟨hshutdown, hjournal⟩ := shutdown_congr hfinal
  exact ⟨replies, final, others, otherFinal, hrun, hotherRun, hreplies, hjournal, hshutdown,
    horderly.config_eq, horderly.loopsFit chunk.toNat_lt batch.toNat_lt⟩

end Session

end ExprHeap
