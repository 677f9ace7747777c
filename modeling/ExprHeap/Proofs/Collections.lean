import ExprHeap.Proofs.Scan
import ExprHeap.Proofs.Sessions
import ExprHeap.Proofs.StoreRuns
import ExprHeap.Proofs.Sweep

/-!
# What a collection keeps

A session is *sound* between collections: its arena is coherent, every child of a
node is allocated, and no cycle is active.  A collection of a sound session, with
any requests in its two gaps, succeeds and leaves a sound session, and it says
exactly what is left (`Sound.collect`).

## Strategy

Both gaps together are one run of requests in a cycle whose barrier is closed, so
`kept_applyAll_iff` tells what the barrier keeps when the sweep comes.  The scan
adds what the words of the regions reach, at the moment between the two gaps.  A
node that neither keeps was there when the cycle began, so its slot lies within
the sweep, and it is reclaimed.  Nothing that the scan has found is reclaimed,
which is what the collection checks at its end.
-/

namespace ExprHeap

/-! ### Scanning a heap -/

namespace Heap

/-- The regions that a scan reads now. -/
def snapshotRegions (heap : Heap) : List Region := heap.settle.registry.regions

/-- The scan of a heap, as an equation between functions. -/
theorem scan_eq : Heap.scan = fun heap memory =>
    (RootScan.ofRegions heap.store.arena memory heap.config.scanChunk heap.snapshotRegions).bind
      fun roots => (roots.finish heap.store.arena heap.config.scanChunk).bind
        fun (live, stats) => .ok (live, stats,
          heap.settle.note (roots.sightings.toList.map .sighted ++ [.scanned stats])) := rfl

theorem scan_of_read {heap : Heap} {memory : Memory} {roots : RootScan} {live : LiveSet}
    {stats : ScanStats}
    (hread : RootScan.ofRegions heap.store.arena memory heap.config.scanChunk
      heap.snapshotRegions = .ok roots)
    (hfinish : roots.finish heap.store.arena heap.config.scanChunk = .ok (live, stats)) :
    heap.scan memory = .ok (live, stats,
      heap.settle.note (roots.sightings.toList.map .sighted ++ [.scanned stats])) := by
  rw [scan_eq]
  exact (bind_eq_of_ok hread _).trans (bind_eq_of_ok hfinish _)

theorem exact_scan {heap : Heap} {issued : Nat} (hcoherent : heap.store.arena.Coherent issued)
    (hgapless : heap.store.arena.ChildrenAllocated) (memory : Memory) :
    ∃ live stats events, heap.scan memory = .ok (live, stats, heap.settle.note events) ∧
      live.Exact heap.store.arena (wordsIn memory heap.snapshotRegions) := by
  obtain ⟨roots, hread, hnotes⟩ := RootScan.notes_ofRegions hcoherent memory
    heap.config.scanChunk heap.snapshotRegions
  obtain ⟨live, stats, hfinish, hexact⟩ := hnotes.finish hcoherent (fun _ _ root hroot =>
    hgapless.intact (Arena.contains_of_resolve? hroot)) heap.config.scanChunk
  exact ⟨live, stats, _, scan_of_read hread hfinish, hexact⟩

theorem collect_of_scan {heap scanned : Heap} {memory : Memory} {live : LiveSet}
    {stats : ScanStats} (hscan : heap.beginCycle.2.scan memory = .ok (live, stats, scanned))
    (elapsed : UInt64) : heap.collect memory elapsed =
      scanned.finishCycle heap.beginCycle.1 live stats elapsed := by
  unfold collect
  dsimp only
  rw [hscan]

/-- A cycle is finished without a fault if the sweep leaves everything that was found. -/
theorem finishCycle_ok (heap : Heap) (cycle : Cycle) {live : LiveSet} (stats : ScanStats)
    (elapsed : UInt64)
    (hall : ∀ handle ∈ live.toList, (heap.store.arena.reclaimAll cycle.epoch live.contains
      (List.range' 0 cycle.highWater)).contains handle = true) :
    ∃ report final, heap.finishCycle cycle live stats elapsed = .ok (report, final) ∧
      final.store.arena = (heap.store.arena.reclaimAll cycle.epoch live.contains
        (List.range' 0 cycle.highWater)).endCycle ∧
      final.registry = heap.registry ∧ final.config = heap.config := by
  have harena := heap.store.arena_sweep heap.config.reclaimBatch cycle.epoch live.contains 0
    cycle.highWater
  rw [Nat.sub_zero] at harena
  -- the check at the end finds no live handle that the sweep has taken
  have hverify : live.toList.find? (fun handle => !(heap.store.sweep heap.config.reclaimBatch
      cycle.epoch live.contains 0 cycle.highWater).2.arena.contains handle) = none := by
    simpa [harena] using hall
  unfold finishCycle reclaim
  dsimp only
  rw [hverify]
  exact ⟨_, _, rfl, congrArg Arena.endCycle harena, rfl, rfl⟩

/-- A cycle that has come to its end left what was found.  It reports what it reclaimed, and after
that it has only ended the cycle, recorded the collection and noted what happened. -/
theorem exists_of_finishCycle {heap final : Heap} {cycle : Cycle} {live : LiveSet}
    {stats : ScanStats} {elapsed : UInt64} {report : Report}
    (hfinish : heap.finishCycle cycle live stats elapsed = .ok (report, final)) :
    (∀ handle ∈ live.toList, (heap.reclaim cycle live).2.store.arena.contains handle = true) ∧
      report = ⟨cycle.epoch, stats, live.size, (heap.reclaim cycle live).1.size,
        (heap.reclaim cycle live).2.endCycle.store.size⟩ ∧
      ∃ events, final = { (heap.reclaim cycle live).2.endCycle with
        metrics := (heap.reclaim cycle live).2.endCycle.metrics.recordCollection elapsed
          report.live report.remaining }.note events := by
  unfold finishCycle at hfinish
  dsimp only at hfinish
  split at hfinish
  · cases hfinish
  next hverify =>
    obtain ⟨rfl, rfl⟩ := Prod.mk.inj (Except.ok.inj hfinish)
    exact ⟨by simpa using hverify, rfl, _, rfl⟩

end Heap

/-! ### Sound sessions -/

namespace Session

/-- What holds of a session between collections. -/
structure Sound (session : Session) : Prop where
  coherent : ∃ issued, session.arena.Coherent issued
  gapless : session.arena.ChildrenAllocated
  idle : session.arena.cycleActive = false

theorem sound_start (config : Config) (memory : Memory) :
    Session.Sound ⟨.empty config, memory⟩ where
  coherent := ⟨0, Arena.coherent_empty _⟩
  gapless parent node hnode := by
    simp [arena, Heap.empty, Store.empty, Arena.empty, Arena.node?, Table.entryOf?] at hnode
  idle := rfl

variable {session : Session}

theorem Sound.requestAll (hsound : session.Sound) (requests : List Request) :
    (session.requestAll requests).Sound := by
  obtain ⟨_, hcoherent⟩ := hsound.coherent
  have harena := arena_requestAll session requests
  exact
    { coherent := harena ▸ hcoherent.applyAll _
      gapless := harena ▸ hcoherent.childrenAllocated_applyAll hsound.gapless _
      idle := harena ▸ (Arena.applyAll_cycleActive _ _).trans hsound.idle }

theorem Sound.request (hsound : session.Sound) (request : Request) :
    (session.request request).Sound :=
  hsound.requestAll [request]

/-! ### The moments of a collection -/

/-- The session when a cycle has begun. -/
def begun (session : Session) : Session :=
  let (_, heap) := session.heap.beginCycle
  { session with heap := heap }

/-- The session when a collection reads the regions. -/
def atScan (session : Session) (scanning : List Request) : Session :=
  session.begun.requestAll scanning

/-- The session when a collection comes to its sweep. -/
def atSweep (session : Session) (scanning scanned : List Request) : Session :=
  ((session.atScan scanning).request .settle).requestAll scanned

/-- The words that a collection reads. -/
def wordsRead (session : Session) (scanning : List Request) : List UInt64 :=
  wordsIn (session.atScan scanning).memory (session.atScan scanning).heap.snapshotRegions

/-- What the requests in the gaps of a collection ask of the store. -/
def duringCycle (session : Session) (scanning scanned : List Request) : List NodeRequest :=
  session.begun.nodeRequests scanning ++
    ((session.atScan scanning).request .settle).nodeRequests scanned

theorem arena_atScan (session : Session) (scanning : List Request) :
    (session.atScan scanning).arena =
      session.arena.beginCycle.applyAll (session.begun.nodeRequests scanning) :=
  arena_requestAll session.begun scanning

theorem arena_atSweep_of_atScan (session : Session) (scanning scanned : List Request) :
    (session.atSweep scanning scanned).arena = (session.atScan scanning).arena.applyAll
      (((session.atScan scanning).request .settle).nodeRequests scanned) :=
  arena_requestAll ((session.atScan scanning).request .settle) scanned

theorem arena_atSweep (session : Session) (scanning scanned : List Request) :
    (session.atSweep scanning scanned).arena =
      session.arena.beginCycle.applyAll (session.duringCycle scanning scanned) := by
  rw [arena_atSweep_of_atScan, arena_atScan]
  exact List.foldl_append.symm

/-- What a collection keeps: what the words that it reads reach, what is born during the cycle,
and what lies below the nodes that requests shade during the cycle. -/
def Retained (session : Session) (scanning scanned : List Request) (handle : Handle) : Prop :=
  (session.atScan scanning).arena.Reachable (session.wordsRead scanning) handle ∨
    handle ∈ session.begun.arena.bornIn (session.duringCycle scanning scanned) ∨
    ∃ root ∈ session.begun.arena.rootsIn (session.duringCycle scanning scanned),
      (session.atSweep scanning scanned).arena.Below root handle

theorem collect_of_ok {scanning scanned : List Request} {elapsed : UInt64} {live : LiveSet}
    {stats : ScanStats} {heap final : Heap} {report : Report}
    (hscan : (session.atScan scanning).heap.scan (session.atScan scanning).memory =
      .ok (live, stats, heap))
    (hfinish : ({ session.atScan scanning with heap := heap }.requestAll scanned).heap.finishCycle
      session.heap.beginCycle.1 live stats elapsed = .ok (report, final)) :
    session.collect scanning scanned elapsed = .ok (report,
      { { session.atScan scanning with heap := heap }.requestAll scanned with heap := final }) := by
  unfold atScan begun at hscan hfinish
  unfold Session.collect
  dsimp only
  rw [hscan]
  dsimp only
  rw [hfinish]
  rfl

/-! ### What the journal does not change -/

/-- The session but for its journal. -/
def withoutJournal (session : Session) : Session :=
  { session with heap := { session.heap with journal := #[] } }

theorem withoutJournal_request (session : Session) (request : Request) :
    (session.request request).withoutJournal =
      (session.withoutJournal.request request).withoutJournal := by
  cases request with
  | build construction =>
      simp only [Session.request, Heap.build, Heap.allocate, withoutJournal]
      cases construction.toNode session.heap.store.widthOf with
      | error error => rfl
      | ok node =>
          dsimp only
          cases session.heap.store.allocate node <;> rfl
  | shade handle =>
      simp only [Session.request, Heap.shade, withoutJournal]
      cases session.heap.store.shade handle <;> rfl
  | register base length kind =>
      simp only [Session.request, Heap.register, withoutJournal]
      cases session.heap.registry.register base length kind <;> rfl
  | unregister base length => rfl
  | settle => rfl
  | write address word => rfl

theorem withoutJournal_requestAll {first second : Session}
    (hsame : first.withoutJournal = second.withoutJournal) (requests : List Request) :
    (first.requestAll requests).withoutJournal = (second.requestAll requests).withoutJournal := by
  induction requests generalizing first second with
  | nil => exact hsame
  | cons request rest ih =>
      apply ih
      rw [withoutJournal_request, hsame, ← withoutJournal_request]

theorem eq_of_withoutJournal_eq {first second : Session}
    (hsame : first.withoutJournal = second.withoutJournal) :
    first.arena = second.arena ∧ first.memory = second.memory ∧
      first.heap.registry = second.heap.registry ∧ first.heap.config = second.heap.config := by
  have harena := congrArg Session.arena hsame
  have hmemory := congrArg Session.memory hsame
  have hregistry := congrArg (fun session => session.heap.registry) hsame
  have hconfig := congrArg (fun session => session.heap.config) hsame
  exact ⟨harena, hmemory, hregistry, hconfig⟩

/-! ### The sweep of a collection -/

variable {scanning scanned : List Request}

theorem Sound.inCycle_atSweep (hsound : session.Sound) (scanning scanned : List Request) :
    (session.atSweep scanning scanned).arena.InCycle (session.arena.epoch + 1) := by
  obtain ⟨_, hcoherent⟩ := hsound.coherent
  rw [arena_atSweep]
  exact hcoherent.inCycle_beginCycle.applyAll _

theorem Sound.gapless_atScan (hsound : session.Sound) (scanning : List Request) :
    (∃ issued, (session.atScan scanning).arena.Coherent issued) ∧
      (session.atScan scanning).arena.ChildrenAllocated := by
  obtain ⟨_, hcoherent⟩ := hsound.coherent
  rw [arena_atScan]
  exact ⟨hcoherent.beginCycle.applyAll _,
    hcoherent.beginCycle.childrenAllocated_applyAll hsound.gapless _⟩

theorem Sound.gapless_atSweep (hsound : session.Sound) (scanning scanned : List Request) :
    (session.atSweep scanning scanned).arena.ChildrenAllocated := by
  obtain ⟨_, hcoherent⟩ := hsound.coherent
  rw [arena_atSweep]
  exact hcoherent.beginCycle.childrenAllocated_applyAll hsound.gapless _

theorem Sound.extends_atSweep (hsound : session.Sound) (scanning scanned : List Request) :
    Arena.Extends (session.atScan scanning).arena (session.atSweep scanning scanned).arena := by
  obtain ⟨⟨_, hcoherent⟩, -⟩ := hsound.gapless_atScan scanning
  rw [arena_atSweep_of_atScan]
  exact hcoherent.extends_applyAll _

/-- What the barrier keeps when the sweep comes. -/
theorem Sound.kept_atSweep_iff (hsound : session.Sound) {handle : Handle} :
    (session.atSweep scanning scanned).arena.Kept handle ↔
      handle ∈ session.begun.arena.bornIn (session.duringCycle scanning scanned) ∨
        ∃ root ∈ session.begun.arena.rootsIn (session.duringCycle scanning scanned),
          (session.atSweep scanning scanned).arena.Below root handle := by
  obtain ⟨_, hcoherent⟩ := hsound.coherent
  rw [arena_atSweep, hcoherent.beginCycle.kept_applyAll_iff hsound.gapless
    hcoherent.barrierClosed_beginCycle rfl]
  exact or_iff_right (hcoherent.not_kept_beginCycle handle)

/-- A node that is neither found nor kept was there when the cycle began. -/
theorem Sound.index_lt_of_not_kept (hsound : session.Sound) {handle : Handle}
    (hcontains : (session.atSweep scanning scanned).arena.contains handle = true)
    (hnotKept : ¬ (session.atSweep scanning scanned).arena.Kept handle) :
    handle.index.toNat < session.arena.table.size := by
  obtain ⟨_, hcoherent⟩ := hsound.coherent
  rw [arena_atSweep, hcoherent.beginCycle.contains_applyAll_iff] at hcontains
  rcases hcontains with hold | hborn
  · obtain ⟨entry, hentry⟩ := Arena.exists_entry_of_contains hold
    exact Nat.lt_of_lt_of_le (hcoherent.index_lt hentry) hcoherent.issued_le_size
  · exact absurd (hsound.kept_atSweep_iff.mpr (.inl hborn)) hnotKept

/-- The arena when the sweep is over. -/
def swept (session : Session) (scanning scanned : List Request) (live : LiveSet) : Arena :=
  (session.atSweep scanning scanned).arena.reclaimAll (session.arena.epoch + 1) live.contains
    (List.range' 0 session.arena.table.size)

/-- **Left by the sweep is what a collection keeps.** -/
theorem Sound.contains_swept_iff (hsound : session.Sound) {live : LiveSet}
    (hexact : live.Exact (session.atScan scanning).arena (session.wordsRead scanning))
    {handle : Handle} :
    (session.swept scanning scanned live).contains handle = true ↔
      session.Retained scanning scanned handle := by
  have hcycle := hsound.inCycle_atSweep scanning scanned
  obtain ⟨_, hcoherent⟩ := hcycle.coherent
  obtain ⟨-, hgapless⟩ := hsound.gapless_atScan scanning
  unfold Retained swept
  rw [← hsound.kept_atSweep_iff, hcoherent.contains_reclaimAll_iff, ← hcycle.epoch_eq,
    hcoherent.reclaimable_iff]
  constructor
  · rintro ⟨hcontains, hnot⟩
    by_cases hkept : (session.atSweep scanning scanned).arena.Kept handle
    · exact .inr hkept
    · -- the sweep ends at the high water mark, and what stands beyond it was born in the cycle
      have hindex := hsound.index_lt_of_not_kept hcontains hkept
      have hlive : live.contains handle = true := by
        by_contra hdead
        refine hnot ⟨?_, hcontains, hkept, by simpa using hdead⟩
        simpa [List.mem_range'_1] using hindex
      exact .inl ((hexact.contains_iff handle
        (Marking.generation_ne_zero_of_contains hcoherent hcontains)).mp hlive)
  · rintro (hreachable | hkept)
    · have hcontains := (hsound.extends_atSweep scanning scanned).contains
        (hgapless.contains_of_reachable hreachable)
      have hlive := (hexact.contains_iff handle
        (Marking.generation_ne_zero_of_contains hcoherent hcontains)).mpr hreachable
      exact ⟨hcontains, fun ⟨_, _, _, hdead⟩ => by simp [hlive] at hdead⟩
    · exact ⟨hkept.contains, fun ⟨_, _, hnotKept, _⟩ => hnotKept hkept⟩

/-- What is left has the node that it had. -/
theorem Sound.node?_of_swept (hsound : session.Sound) {live : LiveSet} {handle : Handle}
    {node : Node} (hnode : (session.swept scanning scanned live).node? handle = some node) :
    (session.atSweep scanning scanned).arena.node? handle = some node := by
  obtain ⟨_, hcoherent⟩ := (hsound.inCycle_atSweep scanning scanned).coherent
  exact hcoherent.node?_of_reclaimAll hnode

/-- What a collection keeps is closed under children. -/
theorem Sound.retained_child (hsound : session.Sound) {parent child : Handle} {node : Node}
    (hparent : session.Retained scanning scanned parent)
    (hnode : (session.atSweep scanning scanned).arena.node? parent = some node)
    (hmem : child ∈ node.children) : session.Retained scanning scanned child := by
  have hcycle := hsound.inCycle_atSweep scanning scanned
  obtain ⟨-, hgapless⟩ := hsound.gapless_atScan scanning
  rcases hparent with hreachable | hkept
  · -- the parent had the same node when the regions were read
    obtain ⟨old, hold⟩ := Arena.contains_iff.mp (hgapless.contains_of_reachable hreachable)
    have hsame := hsound.extends_atSweep scanning scanned parent old hold
    obtain rfl := Option.some.inj (hsame.symm.trans hnode)
    obtain ⟨word, hword, root, hroot, hbelow⟩ := hreachable
    exact .inl ⟨word, hword, root, hroot, .child hbelow hold hmem⟩
  · have hchild := hsound.gapless_atSweep scanning scanned parent node hnode child hmem
    exact .inr (hsound.kept_atSweep_iff.mp (hcycle.closed parent child node
      (hsound.kept_atSweep_iff.mpr hkept) hnode hmem hchild))

/-! ### A whole collection -/

/-- **A collection of a sound session succeeds, and leaves a sound session with exactly the nodes
that it keeps.** -/
theorem Sound.collect (hsound : session.Sound) (scanning scanned : List Request)
    (elapsed : UInt64) :
    ∃ report final, session.collect scanning scanned elapsed = .ok (report, final) ∧
      final.Sound ∧
      (∀ handle, final.arena.contains handle = true ↔ session.Retained scanning scanned handle) ∧
      (∀ handle node, final.arena.node? handle = some node →
        (session.atSweep scanning scanned).arena.node? handle = some node) ∧
      final.memory = (session.atSweep scanning scanned).memory ∧
      final.heap.registry = (session.atSweep scanning scanned).heap.registry ∧
      final.heap.config = (session.atSweep scanning scanned).heap.config := by
  obtain ⟨⟨_, hcoherent⟩, hgapless⟩ := hsound.gapless_atScan scanning
  obtain ⟨live, stats, events, hscan, hexact⟩ :=
    Heap.exact_scan hcoherent hgapless (session.atScan scanning).memory
  let found : Session :=
    { session.atScan scanning with heap := (session.atScan scanning).heap.settle.note events }
  have hsame : found.withoutJournal =
      ((session.atScan scanning).request .settle).withoutJournal := rfl
  obtain ⟨harena, hmemory, hregistrySame, hconfigSame⟩ :=
    eq_of_withoutJournal_eq (withoutJournal_requestAll hsame scanned)
  have hswept : (found.requestAll scanned).arena.reclaimAll (session.arena.epoch + 1)
      live.contains (List.range' 0 session.arena.table.size) =
        session.swept scanning scanned live := by
    rw [harena]
    rfl
  -- nothing that the scan has found is swept, so the check at the end finds nothing
  obtain ⟨report, heap, hfinish, hheap, hregistry, hconfig⟩ :=
    (found.requestAll scanned).heap.finishCycle_ok session.heap.beginCycle.1 stats elapsed
      fun handle hmem => (congrArg (Arena.contains · handle) hswept).trans
        ((hsound.contains_swept_iff hexact).mpr (.inl (hexact.reachable_of_mem handle hmem)))
  have hfinal : heap.store.arena = (session.swept scanning scanned live).endCycle :=
    hheap.trans (congrArg Arena.endCycle hswept)
  have hnode : ∀ handle, heap.store.arena.node? handle =
      (session.swept scanning scanned live).node? handle := by
    rw [hfinal]
    exact fun _ => rfl
  have hcontains : ∀ handle, heap.store.arena.contains handle = true ↔
      session.Retained scanning scanned handle := by
    intro handle
    rw [hfinal]
    exact hsound.contains_swept_iff hexact
  refine ⟨report, { found.requestAll scanned with heap := heap }, ?_, ?_, hcontains, ?_, ?_, ?_, ?_⟩
  · exact collect_of_ok hscan hfinish
  · obtain ⟨_, hatSweep⟩ := (hsound.inCycle_atSweep scanning scanned).coherent
    refine
      { coherent := ⟨_, hfinal ▸ (hatSweep.reclaimAll _).endCycle⟩
        gapless := fun parent node hparent child hmem => (hcontains child).mpr ?_
        idle := congrArg Arena.cycleActive hfinal }
    exact hsound.retained_child ((hcontains parent).mp (Arena.contains_of_node? hparent))
      (hsound.node?_of_swept ((hnode parent).symm.trans hparent)) hmem
  · exact fun handle node hfound => hsound.node?_of_swept ((hnode handle).symm.trans hfound)
  · exact hmemory
  · exact hregistry.trans hregistrySame
  · exact hconfig.trans hconfigSame

/-! ### Reached sessions -/

theorem Sound.act (hsound : session.Sound) {action : Action} {next : Session}
    (hact : session.act action = .ok next) : next.Sound := by
  obtain rfl | ⟨asked, rfl⟩ | ⟨scanning, scanned, elapsed, report, hcollect⟩ := act_cases hact
  · exact hsound
  · exact hsound.request asked
  · obtain ⟨_, _, hok, hfinal, -⟩ := hsound.collect scanning scanned elapsed
    obtain ⟨-, rfl⟩ := Prod.mk.inj (Except.ok.inj (hok.symm.trans hcollect))
    exact hfinal

theorem Reached.sound {config : Config} (hreached : session.Reached config) : session.Sound := by
  induction hreached with
  | start memory => exact sound_start config memory
  | act action _ hact ih => exact ih.act hact

theorem Reached.requestAll {config : Config} (hreached : session.Reached config)
    (requests : List Request) : (session.requestAll requests).Reached config := by
  induction requests generalizing session with
  | nil => exact hreached
  | cons request rest ih => exact ih (.act (.request request) hreached rfl)

/-- **A collection keeps exactly** what the words that it reads reach, what is born during the
cycle, and what lies below the nodes that are shaded during the cycle, in whatever session and
whatever the requests in its gaps. -/
theorem collect_keeps_exactly {config : Config} (hreached : session.Reached config)
    (scanning scanned : List Request) (elapsed : UInt64) :
    ∃ report final, session.collect scanning scanned elapsed = .ok (report, final) ∧
      ∀ handle, final.arena.contains handle = true ↔
        (session.atScan scanning).arena.Reachable (session.wordsRead scanning) handle ∨
        handle ∈ session.begun.arena.bornIn (session.duringCycle scanning scanned) ∨
        ∃ root ∈ session.begun.arena.rootsIn (session.duringCycle scanning scanned),
          (session.atSweep scanning scanned).arena.Below root handle := by
  obtain ⟨report, final, hcollect, -, hcontains, -⟩ :=
    hreached.sound.collect scanning scanned elapsed
  exact ⟨report, final, hcollect, hcontains⟩

/-- Three bytes of input and the negation of the first, which alone stands in a region. -/
def rootedNegation : Session :=
  Session.requestAll ⟨.empty .default, .zeroed⟩ [.build (.input 0), .build (.unary .neg ⟨0, 1⟩),
    .build (.input 1), .build (.input 2), .register 8 1 .other, .write 8 (Handle.word ⟨1, 1⟩)]

/-- A fourth byte is born while the regions are still to be read, and the second byte is shaded
before the sweep: of the five nodes only the third byte goes. -/
theorem collect_keeps_all_but_one :
    rootedNegation.Reached .default ∧
      ∃ report final, rootedNegation.collect [.build (.input 3)] [.shade ⟨2, 1⟩] 0 =
          .ok (report, final) ∧
        ∀ handle, final.arena.contains handle = true ↔
          handle ∈ [⟨1, 1⟩, ⟨0, 1⟩, ⟨4, 1⟩, ⟨2, 1⟩] := by
  have hreached : rootedNegation.Reached .default := (Reached.start .zeroed).requestAll _
  obtain ⟨report, final, hcollect, hcontains⟩ :=
    collect_keeps_exactly hreached [.build (.input 3)] [.shade ⟨2, 1⟩] 0
  refine ⟨hreached, report, final, hcollect, fun handle => (hcontains handle).trans ?_⟩
  have hwords : rootedNegation.wordsRead [.build (.input 3)] = [Handle.word ⟨1, 1⟩] := by cbv
  have hroot : (rootedNegation.atScan [.build (.input 3)]).arena.resolve? (Handle.word ⟨1, 1⟩) =
      some ⟨1, 1⟩ := by cbv
  have hnegation : (rootedNegation.atScan [.build (.input 3)]).arena.node? ⟨1, 1⟩ =
      some ⟨.unary .neg, [⟨0, 1⟩], 8⟩ := by cbv
  have hfirst : (rootedNegation.atScan [.build (.input 3)]).arena.node? ⟨0, 1⟩ =
      some ⟨.input 0, [], 8⟩ := by cbv
  have hborn : rootedNegation.begun.arena.bornIn
      (rootedNegation.duringCycle [.build (.input 3)] [.shade ⟨2, 1⟩]) = [⟨4, 1⟩] := by cbv
  have hshaded : rootedNegation.begun.arena.rootsIn
      (rootedNegation.duringCycle [.build (.input 3)] [.shade ⟨2, 1⟩]) = [⟨2, 1⟩] := by cbv
  have hsecond : (rootedNegation.atSweep [.build (.input 3)] [.shade ⟨2, 1⟩]).arena.node? ⟨2, 1⟩ =
      some ⟨.input 1, [], 8⟩ := by cbv
  have hreachable : (rootedNegation.atScan [.build (.input 3)]).arena.Reachable
      (rootedNegation.wordsRead [.build (.input 3)]) handle ↔
        handle = ⟨1, 1⟩ ∨ handle = ⟨0, 1⟩ := by
    simp [Arena.Reachable, hwords, hroot, Arena.below_iff_of_node? hnegation,
      Arena.below_iff_of_node? hfirst]
  simp [hreachable, hborn, hshaded, Arena.below_iff_of_node? hsecond, or_assoc]

end Session

end ExprHeap
