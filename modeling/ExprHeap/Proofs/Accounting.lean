import ExprHeap.Proofs.Books
import ExprHeap.Proofs.FaultFreedom
import ExprHeap.Proofs.ScanAnswers

/-!
# The accounts of a heap

A heap has the totals of its store, and beside them the metrics, which are written when a collection
begins and when it ends.  Neither knows of the other.  Here a *ledger* goes with the run: how many
requests have been answered with a handle, with which size each collection began, how many nodes
have been born since, and what each collection reported.

A moment is `Audited` with the ledger of the run that has led to it, step by step; every moment that
is reached is audited with some ledger (`Reached.audited`).  The accounts of every audited moment
are in order (`Audited.ordered`), in the middle of a collection as well as between two.

## Strategy

Within a collection no node goes before the sweep, so at its end the store has the nodes with which
the collection began and those born since.  The sweep moves some of them from the size to the total
of what was taken away (`Store.size_sweep`).  What it leaves includes the live set, member by
member, as the collection checks itself; so the live set is no larger.
-/

namespace ExprHeap

/-! ### What the steps of a collection write -/

namespace Heap

variable {heap after : Heap} {memory : Memory} {live : LiveSet} {stats : ScanStats}

/-- A scan of a heap is a scan of its regions, and leaves the store and the metrics alone. -/
theorem scanRegions_of_scan (hscan : heap.scan memory = .ok (live, stats, after)) :
    scanRegions heap.store.arena memory heap.config.scanChunk heap.snapshotRegions =
        .ok (live, stats) ∧
      ∃ events, after = heap.settle.note events := by
  rw [scan_eq] at hscan
  obtain ⟨roots, hread, hrest⟩ := exists_of_bind_eq_ok hscan
  obtain ⟨⟨found, counts⟩, hfinish, hanswer⟩ := exists_of_bind_eq_ok hrest
  simp only [Except.ok.injEq, Prod.mk.injEq] at hanswer
  obtain ⟨rfl, rfl, rfl⟩ := hanswer
  exact ⟨scanRegions_of_read hread hfinish, _, rfl⟩

/-- What a cycle that is finished reports and leaves. -/
structure Finished (heap : Heap) (cycle : Cycle) (live : LiveSet) (elapsed : UInt64)
    (report : Report) (after : Heap) : Prop where
  contains : ∀ handle ∈ live.toList, (heap.store.sweep heap.config.reclaimBatch cycle.epoch
    live.contains 0 cycle.highWater).2.arena.contains handle = true
  live_eq : report.live = live.size
  freed_eq : report.freed = (heap.store.sweep heap.config.reclaimBatch cycle.epoch
    live.contains 0 cycle.highWater).1.size
  remaining_eq : report.remaining = after.store.size
  allocations_eq : after.store.allocations = heap.store.allocations
  internHits_eq : after.store.internHits = heap.store.internHits
  frees_eq : after.store.frees = heap.store.frees + report.freed
  arena_eq : after.store.arena = (heap.store.sweep heap.config.reclaimBatch cycle.epoch
    live.contains 0 cycle.highWater).2.arena.endCycle
  metrics_eq : after.metrics =
    { heap.metrics.recordCollection elapsed report.live report.remaining with phase := .idle }

theorem finished_of_finishCycle {cycle : Cycle} {elapsed : UInt64} {report : Report}
    (hfinish : heap.finishCycle cycle live stats elapsed = .ok (report, after)) :
    heap.Finished cycle live elapsed report after := by
  obtain ⟨hleft, rfl, _, rfl⟩ := exists_of_finishCycle hfinish
  exact ⟨hleft, rfl, rfl, rfl, rfl, rfl, rfl, rfl, rfl⟩

variable {cycle : Cycle} {elapsed : UInt64} {report : Report} {issued : Nat}

/-- What a collection freed and what it left is what there was before the sweep. -/
theorem Finished.freed_add_remaining (hfinished : heap.Finished cycle live elapsed report after)
    (hcoherent : heap.store.arena.Coherent issued) :
    report.freed + report.remaining = heap.store.size := by
  rw [hfinished.remaining_eq, hfinished.freed_eq, Store.size, hfinished.arena_eq]
  exact Store.size_sweep hcoherent _ _ _ _ _

/-- Whatever is live is left. -/
theorem Finished.live_le_remaining (hfinished : heap.Finished cycle live elapsed report after)
    (hcoherent : heap.store.arena.Coherent issued) (hnodup : live.toList.Nodup)
    (hlength : live.toList.length = live.size) : report.live ≤ report.remaining := by
  have hswept : (heap.store.sweep heap.config.reclaimBatch cycle.epoch live.contains 0
      cycle.highWater).2.arena.Coherent issued := by
    rw [Store.arena_sweep]
    exact hcoherent.reclaimAll _
  rw [hfinished.live_eq, ← hlength, hfinished.remaining_eq, Store.size, hfinished.arena_eq]
  exact hswept.length_le_size hnodup hfinished.contains

end Heap

namespace Session

/-! ### What a request adds -/

/-- How many handles a request to a session is answered with. -/
def grants (session : Session) : Request → Nat
  | .build construction =>
    match session.heap.build construction with
    | .ok _ => 1
    | .error _ => 0
  | _ => 0

/-- How many new nodes a request to a session brings about. -/
def births (session : Session) (asked : Request) : Nat :=
  (session.nodeRequest? asked).elim 0 session.heap.store.births

theorem adds_build (session : Session) (construction : Construction) :
    session.heap.store.Adds (session.request (.build construction)).heap.store
      (session.grants (.build construction)) (session.births (.build construction)) := by
  simp only [request, grants, births, nodeRequest?, Heap.build]
  cases construction.toNode session.heap.store.widthOf with
  | error error => exact session.heap.store.adds_refl
  | ok node =>
      -- the store is asked for the node that the construction stands for
      have hadds := session.heap.store.adds_allocate node
      simp only [Store.perform, Store.grants, Heap.allocate, Option.elim_some] at hadds ⊢
      cases hallocate : session.heap.store.allocate node with
      | error error => simpa only [hallocate] using hadds
      | ok answer =>
          simp only [hallocate] at hadds ⊢
          exact hadds

theorem adds_request (session : Session) (asked : Request) :
    session.heap.store.Adds (session.request asked).heap.store (session.grants asked)
      (session.births asked) := by
  cases asked with
  | build construction => exact session.adds_build construction
  | shade handle =>
      have hadds := session.heap.store.adds_request (.shade handle)
      simp only [request, Heap.shade, Store.perform] at hadds ⊢
      cases hshade : session.heap.store.shade handle with
      | error error => exact session.heap.store.adds_refl
      | ok store =>
          simp only [hshade] at hadds
          exact hadds
  | register base length kind =>
      simp only [request, Heap.register]
      cases session.heap.registry.register base length kind <;>
        exact session.heap.store.adds_refl
  | unregister base length => exact session.heap.store.adds_refl
  | settle => exact session.heap.store.adds_refl
  | write address word => exact session.heap.store.adds_refl

end Session

/-! ### The ledger of a run -/

/-- What is known of a run. -/
structure Ledger where
  /-- The requests answered with a handle. -/
  granted : Nat
  /-- The sizes with which the collections began, the latest first. -/
  starts : List Nat
  /-- The nodes born since the latest of them began. -/
  born : Nat
  /-- The reports of the collections that have ended, the latest first. -/
  reports : List Report

namespace Moment

/-- A moment, and the ledger of a run that leads to it. -/
inductive Audited (config : Config) : Moment → Ledger → Prop
  | start (memory : Memory) :
      Audited config ⟨⟨.empty config, memory⟩, .between⟩ ⟨0, [], 0, []⟩
  | request {session : Session} {stage : Stage} {ledger : Ledger} (asked : Request) :
      Audited config ⟨session, stage⟩ ledger →
      Audited config ⟨session.request asked, stage⟩ { ledger with
        granted := ledger.granted + session.grants asked
        born := ledger.born + session.births asked }
  | begin {session : Session} {ledger : Ledger} :
      Audited config ⟨session, .between⟩ ledger →
      Audited config ⟨session.begun, .scanning session.heap.beginCycle.1⟩ { ledger with
        starts := session.heap.size :: ledger.starts
        born := 0 }
  | scan {session : Session} {cycle : Cycle} {ledger : Ledger} {live : LiveSet}
      {stats : ScanStats} {heap : Heap} :
      Audited config ⟨session, .scanning cycle⟩ ledger →
      session.heap.scan session.memory = .ok (live, stats, heap) →
      Audited config ⟨{ session with heap := heap }, .scanned cycle live stats⟩ ledger
  | finish {session : Session} {cycle : Cycle} {ledger : Ledger} {live : LiveSet}
      {stats : ScanStats} {report : Report} {heap : Heap} (elapsed : UInt64) :
      Audited config ⟨session, .scanned cycle live stats⟩ ledger →
      session.heap.finishCycle cycle live stats elapsed = .ok (report, heap) →
      Audited config ⟨{ session with heap := heap }, .between⟩ { ledger with
        reports := report :: ledger.reports }

variable {config : Config} {moment before after : Moment} {ledger : Ledger}

/-- An audited moment is reached. -/
theorem Audited.reached (haudited : moment.Audited config ledger) : moment.Reached config := by
  -- the ledger is written beside the run, so leaving it out gives the run
  induction haudited with
  | start memory => exact ⟨memory, .refl⟩
  | @request session stage _ asked _ ih =>
      obtain ⟨memory, hsteps⟩ := ih
      exact ⟨memory, hsteps.tail (.request session stage asked)⟩
  | @begin session _ _ ih =>
      obtain ⟨memory, hsteps⟩ := ih
      exact ⟨memory, hsteps.tail (.begin session)⟩
  | scan _ hscan ih =>
      obtain ⟨memory, hsteps⟩ := ih
      exact ⟨memory, hsteps.tail (.scan hscan)⟩
  | finish elapsed _ hfinish ih =>
      obtain ⟨memory, hsteps⟩ := ih
      exact ⟨memory, hsteps.tail (.finish elapsed hfinish)⟩

theorem Audited.step (haudited : before.Audited config ledger) (hstep : Step before after) :
    ∃ ledger, after.Audited config ledger := by
  cases hstep with
  | request session stage asked => exact ⟨_, haudited.request asked⟩
  | begin session => exact ⟨_, haudited.begin⟩
  | scan hscan => exact ⟨_, haudited.scan hscan⟩
  | finish elapsed hfinish => exact ⟨_, haudited.finish elapsed hfinish⟩

/-- **Every moment that is reached is audited with some ledger.** -/
theorem Reached.audited (hreached : moment.Reached config) :
    ∃ ledger, moment.Audited config ledger := by
  obtain ⟨memory, hsteps⟩ := hreached
  induction hsteps with
  | refl => exact ⟨_, .start memory⟩
  | tail _ hstep ih =>
      obtain ⟨_, haudited⟩ := ih
      exact haudited.step hstep

/-! ### The accounts are in order -/

/-- The totals and the metrics agree with the ledger. -/
structure Accounted (moment : Moment) (ledger : Ledger) : Prop where
  allocations_eq : moment.session.heap.store.allocations =
    moment.session.heap.store.frees + moment.session.heap.store.size
  granted_eq : moment.session.heap.store.allocations + moment.session.heap.store.internHits =
    ledger.granted
  largestSize_eq : moment.session.heap.metrics.largestSize = ledger.starts.foldr max 0
  previousSize_eq : moment.session.heap.metrics.previousSize =
    (ledger.reports.head?.map Report.remaining).getD 0
  lastLive_eq : moment.session.heap.metrics.lastLive =
    (ledger.reports.head?.map Report.live).getD 0
  /-- While a collection runs, no node goes. -/
  running : moment.stage ≠ .between → ∃ start earlier, ledger.starts = start :: earlier ∧
    moment.session.heap.store.size = start + ledger.born

theorem accounted_start (config : Config) (memory : Memory) :
    Accounted ⟨⟨.empty config, memory⟩, .between⟩ ⟨0, [], 0, []⟩ where
  allocations_eq := rfl
  granted_eq := rfl
  largestSize_eq := rfl
  previousSize_eq := rfl
  lastLive_eq := rfl
  running hstage := absurd rfl hstage

variable {session : Session} {stage : Stage} {cycle : Cycle} {live : LiveSet} {stats : ScanStats}
  {heap : Heap}

theorem Accounted.request (haccounted : Accounted ⟨session, stage⟩ ledger) (asked : Request) :
    Accounted ⟨session.request asked, stage⟩ { ledger with
      granted := ledger.granted + session.grants asked
      born := ledger.born + session.births asked } := by
  have hadds := session.adds_request asked
  have hmetrics := Session.metrics_request session asked
  constructor
  · -- the size grows by what was born, and so do the allocations
    have hbefore : session.heap.store.allocations =
        session.heap.store.frees + session.heap.store.size := haccounted.allocations_eq
    show (session.request asked).heap.store.allocations =
      (session.request asked).heap.store.frees + (session.request asked).heap.store.size
    rw [hadds.allocations_eq, hadds.frees_eq, hadds.size_eq, hbefore, Nat.add_assoc]
  · exact hadds.granted_eq.trans (congrArg (· + _) haccounted.granted_eq)
  · exact (congrArg Metrics.largestSize hmetrics).trans haccounted.largestSize_eq
  · exact (congrArg Metrics.previousSize hmetrics).trans haccounted.previousSize_eq
  · exact (congrArg Metrics.lastLive hmetrics).trans haccounted.lastLive_eq
  · intro hstage
    obtain ⟨start, earlier, hstarts, hsize⟩ := haccounted.running hstage
    refine ⟨start, earlier, hstarts, hadds.size_eq.trans ?_⟩
    exact (congrArg (· + _) hsize).trans (Nat.add_assoc _ _ _)

theorem Accounted.begin (haccounted : Accounted ⟨session, .between⟩ ledger) :
    Accounted ⟨session.begun, .scanning session.heap.beginCycle.1⟩ { ledger with
      starts := session.heap.size :: ledger.starts
      born := 0 } where
  allocations_eq := haccounted.allocations_eq
  granted_eq := haccounted.granted_eq
  largestSize_eq := (congrArg (max · session.heap.size) haccounted.largestSize_eq).trans
    (Nat.max_comm _ _)
  previousSize_eq := haccounted.previousSize_eq
  lastLive_eq := haccounted.lastLive_eq
  running _ := ⟨_, _, rfl, rfl⟩

theorem Accounted.scan (haccounted : Accounted ⟨session, .scanning cycle⟩ ledger)
    (hscan : session.heap.scan session.memory = .ok (live, stats, heap)) :
    Accounted ⟨{ session with heap := heap }, .scanned cycle live stats⟩ ledger := by
  obtain ⟨-, _, rfl⟩ := Heap.scanRegions_of_scan hscan
  exact
    { allocations_eq := haccounted.allocations_eq
      granted_eq := haccounted.granted_eq
      largestSize_eq := haccounted.largestSize_eq
      previousSize_eq := haccounted.previousSize_eq
      lastLive_eq := haccounted.lastLive_eq
      running := fun _ => haccounted.running (by simp) }

theorem Accounted.finish {elapsed : UInt64} {report : Report} {issued : Nat}
    (haccounted : Accounted ⟨session, .scanned cycle live stats⟩ ledger)
    (hcoherent : session.arena.Coherent issued)
    (hfinished : session.heap.Finished cycle live elapsed report heap) :
    Accounted ⟨{ session with heap := heap }, .between⟩ { ledger with
      reports := report :: ledger.reports } := by
  have hsize := hfinished.freed_add_remaining hcoherent
  constructor
  · -- what the sweep has freed it has taken off the size
    have hbefore : session.heap.store.allocations =
        session.heap.store.frees + session.heap.store.size := haccounted.allocations_eq
    show heap.store.allocations = heap.store.frees + heap.store.size
    rw [hfinished.allocations_eq, hfinished.frees_eq, ← hfinished.remaining_eq, hbefore, ← hsize,
      Nat.add_assoc]
  · show heap.store.allocations + heap.store.internHits = ledger.granted
    rw [hfinished.allocations_eq, hfinished.internHits_eq]
    exact haccounted.granted_eq
  · exact (congrArg Metrics.largestSize hfinished.metrics_eq).trans haccounted.largestSize_eq
  · exact congrArg Metrics.previousSize hfinished.metrics_eq
  · exact congrArg Metrics.lastLive hfinished.metrics_eq
  · exact fun hstage => absurd rfl hstage

theorem Audited.accounted (haudited : moment.Audited config ledger) :
    Accounted moment ledger := by
  induction haudited with
  | start memory => exact accounted_start config memory
  | request asked _ ih => exact ih.request asked
  | begin _ ih => exact ih.begin
  | scan _ hscan ih => exact ih.scan hscan
  | finish elapsed hbefore hfinish ih =>
      obtain ⟨⟨_, hcoherent⟩, -⟩ := hbefore.reached.sound.gapless
      exact ih.finish hcoherent (Heap.finished_of_finishCycle hfinish)

/-! ### The end of a collection -/

/-- A live set that a collection has found lists each of its members once. -/
theorem Sound.length_toList (hsound : Sound ⟨session, .scanned cycle live stats⟩) :
    live.toList.Nodup ∧ live.toList.length = live.size := by
  cases hsound with
  | @scanned base _ _ _ scanning scanned hsession hscan =>
      obtain ⟨⟨_, hcoherent⟩, hgapless⟩ := hsession.gapless_atScan scanning
      obtain ⟨hregions, -⟩ := Heap.scanRegions_of_scan hscan
      -- the live set is the answer of a scan, and the answer of a scan is known
      obtain ⟨_, _, hanswer, -, hcloses, -⟩ := scanRegions_answers hcoherent hgapless
        (base.atScan scanning).memory (base.atScan scanning).heap.config.scanChunk
        (base.atScan scanning).heap.snapshotRegions
      have hanswer := hregions.symm.trans hanswer
      obtain ⟨rfl, rfl⟩ := Prod.mk.inj (Except.ok.inj hanswer)
      exact ⟨hcloses.nodup_toList, hcloses.length_toList⟩

/-- A collection that has found its live set comes to its end. -/
theorem Sound.exists_finish (hsound : Sound ⟨session, .scanned cycle live stats⟩)
    (elapsed : UInt64) :
    ∃ report heap, session.heap.finishCycle cycle live stats elapsed = .ok (report, heap) := by
  cases hsound with
  | scanned scanning scanned hsession hscan =>
      obtain ⟨report, _, hcollect, -⟩ := hsession.collect scanning scanned elapsed
      obtain ⟨_, _, _, heap, hread, hfinish, -⟩ := Session.exists_of_collect hcollect
      rw [hscan] at hread
      simp only [Except.ok.injEq, Prod.mk.injEq] at hread
      obtain ⟨rfl, rfl, rfl⟩ := hread
      exact ⟨report, heap, hfinish⟩

/-- What the accounts of a moment say: the totals of the store, what the metrics remember, and, if a
collection is about to sweep, what it will report and leave. -/
structure Ordered (moment : Moment) (ledger : Ledger) : Prop where
  store : moment.session.heap.store.Balanced ledger.granted
  largestSize_eq : moment.session.heap.metrics.largestSize = ledger.starts.foldr max 0
  previousSize_eq : moment.session.heap.metrics.previousSize =
    (ledger.reports.head?.map Report.remaining).getD 0
  lastLive_eq : moment.session.heap.metrics.lastLive =
    (ledger.reports.head?.map Report.live).getD 0
  finish : ∀ cycle live stats, moment.stage = .scanned cycle live stats → ∀ elapsed,
    ∃ report heap start earlier,
      moment.session.heap.finishCycle cycle live stats elapsed = .ok (report, heap) ∧
        ledger.starts = start :: earlier ∧
        report.freed + report.remaining = start + ledger.born ∧
        report.live ≤ report.remaining ∧
        heap.size = report.remaining ∧
        heap.metrics.previousSize = report.remaining ∧
        heap.metrics.lastLive = report.live

/-- **The accounts of every audited moment are in order.** -/
theorem Audited.ordered (haudited : moment.Audited config ledger) : Ordered moment ledger := by
  have haccounted := haudited.accounted
  have hsound := haudited.reached.sound
  obtain ⟨⟨_, hcoherent⟩, -⟩ := hsound.gapless
  refine ⟨⟨haccounted.allocations_eq, hcoherent.ncard_handles.symm, haccounted.granted_eq⟩,
    haccounted.largestSize_eq, haccounted.previousSize_eq, haccounted.lastLive_eq, ?_⟩
  obtain ⟨session, stage⟩ := moment
  rintro cycle live stats rfl elapsed
  -- the sweep to come succeeds, so there is a report to speak of
  obtain ⟨report, heap, hfinish⟩ := hsound.exists_finish elapsed
  have hfinished := Heap.finished_of_finishCycle hfinish
  obtain ⟨start, earlier, hstarts, hsize⟩ := haccounted.running (by simp)
  obtain ⟨hnodup, hlength⟩ := hsound.length_toList
  exact ⟨report, heap, start, earlier, hfinish, hstarts,
    (hfinished.freed_add_remaining hcoherent).trans hsize,
    hfinished.live_le_remaining hcoherent hnodup hlength, hfinished.remaining_eq.symm,
    congrArg Metrics.previousSize hfinished.metrics_eq,
    congrArg Metrics.lastLive hfinished.metrics_eq⟩

end Moment

/-- **No node is lost from the accounts, and none is counted twice.**

After any actions on a store its totals agree with its nodes and with the requests that were
answered; a sweep, whatever slots it takes and whatever is asked in between, frees what there was
and what was born meanwhile less what it leaves, and the sweep of a collection is one of these.

At any moment of any run of a heap, within a collection or between two, the totals agree in the same
way, the metrics remember the largest size with which a collection began and what the last one
reported, and a collection that comes to its sweep will report what there was at its beginning and
what was born since, freed or remaining. -/
theorem node_accounting :
    (∀ capacity actions,
      (Books.after capacity actions).store.Balanced (Books.after capacity actions).granted ∧
        (∀ epoch isLive steps,
          let swept := (Books.after capacity actions).sweep epoch isLive steps
          swept.freed + swept.store.size + (Books.after capacity actions).born =
            (Books.after capacity actions).store.size + swept.born) ∧
        ∀ batch epoch isLive start stop,
          let steps := (List.range' start (stop - start)).map SweepStep.reclaim
          ((Books.after capacity actions).act (.sweep epoch isLive steps)).store =
            ((Books.after capacity actions).store.sweep batch epoch isLive start stop).2) ∧
      ∀ (config : Config) (moment : Moment),
        (moment.Reached config → ∃ ledger, moment.Audited config ledger) ∧
          ∀ ledger, moment.Audited config ledger → moment.Ordered ledger := by
  refine ⟨fun capacity actions => ?_, fun config moment => ⟨Moment.Reached.audited, fun _ =>
    Moment.Audited.ordered⟩⟩
  have hkept := Books.kept_after capacity actions
  have hfreed := Books.freed_after capacity actions
  exact ⟨hkept.balanced hfreed, hkept.freed_add_size hfreed, fun batch epoch isLive start stop =>
    (Books.sweep_range _ hfreed batch epoch isLive start stop).1⟩

namespace Session

/-- A byte is born after a collection has begun that finds the negation and its byte live. -/
theorem rootedNegation_accounts :
    ∃ ledger live stats heap,
      Moment.Audited .default ⟨rootedNegation.afterScan [.build (.input 3)] heap,
        .scanned rootedNegation.heap.beginCycle.1 live stats⟩ ledger ∧
      ledger.granted = 5 ∧ ledger.starts = [4] ∧ ledger.born = 1 ∧
      heap.store.Balanced 5 ∧ heap.metrics.largestSize = 4 ∧
      ∃ report final, heap.finishCycle rootedNegation.heap.beginCycle.1 live stats 0 =
          .ok (report, final) ∧
        report.freed + report.remaining = 4 + 1 ∧ report.live ≤ report.remaining ∧
        final.metrics.previousSize = report.remaining ∧ final.metrics.lastLive = report.live := by
  have hsound := reached_rootedNegation.sound
  obtain ⟨⟨_, hcoherent⟩, hgapless⟩ := hsound.gapless_atScan [.build (.input 3)]
  obtain ⟨live, stats, events, hscan, -⟩ := Heap.exact_scan hcoherent hgapless
    (rootedNegation.atScan [.build (.input 3)]).memory
  have hstart : Moment.Audited .default ⟨⟨.empty .default, .zeroed⟩, .between⟩ ⟨0, [], 0, []⟩ :=
    .start .zeroed
  have hrooted := (((((hstart.request (.build (.input 0))).request
    (.build (.unary .neg ⟨0, 1⟩))).request (.build (.input 1))).request
    (.build (.input 2))).request (.register 8 1 .other)).request
    (.write 8 (Handle.word ⟨1, 1⟩))
  -- the ledger is told by the steps and holds numbers only, so it is evaluated
  obtain ⟨ledger, haudited, hgranted, hstarts, hborn⟩ :
      ∃ ledger, Moment.Audited .default
          ⟨rootedNegation.afterScan [.build (.input 3)] (Heap.note _ events),
            .scanned rootedNegation.heap.beginCycle.1 live stats⟩ ledger ∧
        ledger.granted = 5 ∧ ledger.starts = [4] ∧ ledger.born = 1 :=
    ⟨_, (hrooted.begin.request (.build (.input 3))).scan hscan, by cbv, by cbv, by cbv⟩
  obtain ⟨hstore, hlargest, -, -, hfinish⟩ := (node_accounting.2 .default _).2 ledger haudited
  obtain ⟨report, final, start, earlier, hok, hlatest, hconserved, hlive, -, hprevious, hlast⟩ :=
    hfinish _ live stats rfl 0
  rw [hgranted] at hstore
  rw [hstarts] at hlargest hlatest
  obtain ⟨rfl, rfl⟩ := List.cons.inj hlatest
  rw [hborn] at hconserved
  exact ⟨ledger, live, stats, _, haudited, hgranted, hstarts, hborn, hstore, hlargest, report,
    final, hok, hconserved, hlive, hprevious, hlast⟩

end Session

end ExprHeap
