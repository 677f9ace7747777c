import ExprHeap.Proofs.Collections
import Mathlib.Logic.Relation

/-!
# The moments of a session

`Session.act` runs a whole collection at once, with lists of the requests that come in its two
gaps.  Here it is taken apart.  A *moment* is a session together with its stage: no collection is
under way, or one has begun and the regions are still to be read, or the live set is complete and
the sweep is still to come.  A step takes a session through one stage, or answers one request, in
whatever stage.  The moments that are *reached* are all that a thread that makes requests can
ever come upon.

## Strategy

The scan and the sweep depend on how the cycle began, so a moment within a collection is told by
the sound session that the collection began with and by the requests made since
(`Moment.Sound`).  That is kept by every step, and with it what `Sound.collect` says of the last
step of a collection.  A collection with lists of requests is a run of steps
(`Session.steps_of_collect`), so the reached sessions are among the reached moments.
-/

namespace ExprHeap

/-- How far a collection has come. -/
inductive Stage where
  /-- No collection is under way. -/
  | between
  /-- The cycle has begun and the regions are still to be read. -/
  | scanning (cycle : Cycle)
  /-- The live set is complete and the sweep is still to come. -/
  | scanned (cycle : Cycle) (live : LiveSet) (stats : ScanStats)

/-- A session and its stage. -/
structure Moment where
  session : Session
  stage : Stage

namespace Moment

/-- The nodes at a moment. -/
def arena (moment : Moment) : Arena := moment.session.arena

/-- What can happen next. -/
inductive Step : Moment → Moment → Prop
  | request (session : Session) (stage : Stage) (asked : Request) :
      Step ⟨session, stage⟩ ⟨session.request asked, stage⟩
  | begin (session : Session) :
      Step ⟨session, .between⟩ ⟨session.begun, .scanning session.heap.beginCycle.1⟩
  | scan {session : Session} {cycle : Cycle} {live : LiveSet} {stats : ScanStats} {heap : Heap} :
      session.heap.scan session.memory = .ok (live, stats, heap) →
      Step ⟨session, .scanning cycle⟩ ⟨{ session with heap := heap }, .scanned cycle live stats⟩
  | finish {session : Session} {cycle : Cycle} {live : LiveSet} {stats : ScanStats}
      {report : Report} {heap : Heap} (elapsed : UInt64) :
      session.heap.finishCycle cycle live stats elapsed = .ok (report, heap) →
      Step ⟨session, .scanned cycle live stats⟩ ⟨{ session with heap := heap }, .between⟩

/-- Some run of steps leads from an empty heap and some memory to the moment. -/
def Reached (config : Config) (moment : Moment) : Prop :=
  ∃ memory, Relation.ReflTransGen Step ⟨⟨.empty config, memory⟩, .between⟩ moment

/-- Some run of steps leads from one moment to the other, and the handle names a node after each
of them. -/
def Retains (handle : Handle) : Moment → Moment → Prop :=
  Relation.ReflTransGen fun before after => Step before after ∧ after.arena.contains handle = true

end Moment

namespace Session

variable {session : Session} {scanning scanned : List Request}

/-! ### The parts of a collection -/

theorem requestAll_concat (session : Session) (requests : List Request) (last : Request) :
    session.requestAll (requests ++ [last]) = (session.requestAll requests).request last :=
  List.foldl_concat Session.request session last requests

/-- The session when a collection has read the regions, with the heap that this has left. -/
def afterScan (session : Session) (scanning : List Request) (heap : Heap) : Session :=
  { session.atScan scanning with heap := heap }

/-- What a collection that succeeds has gone through. -/
theorem exists_of_collect {elapsed : UInt64} {report : Report} {final : Session}
    (hcollect : session.collect scanning scanned elapsed = .ok (report, final)) :
    ∃ live stats heap swept,
      (session.atScan scanning).heap.scan (session.atScan scanning).memory =
        .ok (live, stats, heap) ∧
      ((session.afterScan scanning heap).requestAll scanned).heap.finishCycle
        session.heap.beginCycle.1 live stats elapsed = .ok (report, swept) ∧
      final = { (session.afterScan scanning heap).requestAll scanned with heap := swept } := by
  cases hscan : (session.atScan scanning).heap.scan (session.atScan scanning).memory with
  | error fault =>
      unfold Session.collect at hcollect
      unfold atScan begun at hscan
      dsimp only at hcollect
      rw [hscan] at hcollect
      cases hcollect
  | ok found =>
      obtain ⟨live, stats, heap⟩ := found
      cases hfinish : ((session.afterScan scanning heap).requestAll scanned).heap.finishCycle
          session.heap.beginCycle.1 live stats elapsed with
      | error fault =>
          unfold Session.collect at hcollect
          unfold afterScan at hfinish
          unfold atScan begun at hscan hfinish
          dsimp only at hcollect
          rw [hscan] at hcollect
          dsimp only at hcollect hfinish
          rw [hfinish] at hcollect
          cases hcollect
      | ok answer =>
          obtain ⟨answered, swept⟩ := answer
          rw [collect_of_ok hscan hfinish] at hcollect
          obtain ⟨rfl, rfl⟩ := Prod.mk.inj (Except.ok.inj hcollect)
          exact ⟨live, stats, heap, swept, rfl, hfinish, rfl⟩

variable {live : LiveSet} {stats : ScanStats} {heap : Heap}

/-- Reading the regions settles the registry and changes nothing else but the journal. -/
theorem Sound.withoutJournal_afterScan (hsound : session.Sound)
    (hscan : (session.atScan scanning).heap.scan (session.atScan scanning).memory =
      .ok (live, stats, heap)) :
    (session.afterScan scanning heap).withoutJournal =
      ((session.atScan scanning).request .settle).withoutJournal := by
  obtain ⟨⟨_, hcoherent⟩, hgapless⟩ := hsound.gapless_atScan scanning
  obtain ⟨_, _, events, hok, -⟩ :=
    Heap.exact_scan hcoherent hgapless (session.atScan scanning).memory
  rw [hscan] at hok
  simp only [Except.ok.injEq, Prod.mk.injEq] at hok
  obtain ⟨-, -, rfl⟩ := hok
  rfl

theorem Sound.arena_afterScan (hsound : session.Sound)
    (hscan : (session.atScan scanning).heap.scan (session.atScan scanning).memory =
      .ok (live, stats, heap)) (scanned : List Request) :
    ((session.afterScan scanning heap).requestAll scanned).arena =
      (session.atSweep scanning scanned).arena :=
  (eq_of_withoutJournal_eq
    (withoutJournal_requestAll (hsound.withoutJournal_afterScan hscan) scanned)).1

/-- The end of a collection leaves a sound session, and nodes that were there before. -/
theorem Sound.finish (hsound : session.Sound)
    (hscan : (session.atScan scanning).heap.scan (session.atScan scanning).memory =
      .ok (live, stats, heap)) {elapsed : UInt64} {report : Report} {swept : Heap}
    (hfinish : ((session.afterScan scanning heap).requestAll scanned).heap.finishCycle
      session.heap.beginCycle.1 live stats elapsed = .ok (report, swept)) :
    Session.Sound { (session.afterScan scanning heap).requestAll scanned with heap := swept } ∧
      ∀ handle node, swept.store.arena.node? handle = some node →
        ((session.afterScan scanning heap).requestAll scanned).arena.node? handle =
          some node := by
  obtain ⟨answer, final, hcollect, hfinal, -, hnode, -⟩ :=
    hsound.collect scanning scanned elapsed
  rw [collect_of_ok hscan hfinish] at hcollect
  obtain ⟨rfl, rfl⟩ := Prod.mk.inj (Except.ok.inj hcollect)
  rw [hsound.arena_afterScan hscan]
  exact ⟨hfinal, hnode⟩

end Session

/-! ### Sound moments -/

namespace Moment

/-- A sound session, or what requests and the steps of a collection have made of one. -/
inductive Sound : Moment → Prop
  | between {session : Session} : session.Sound → Sound ⟨session, .between⟩
  | scanning {session : Session} (scanning : List Request) : session.Sound →
      Sound ⟨session.atScan scanning, .scanning session.heap.beginCycle.1⟩
  | scanned {session : Session} {live : LiveSet} {stats : ScanStats} {heap : Heap}
      (scanning scanned : List Request) : session.Sound →
      (session.atScan scanning).heap.scan (session.atScan scanning).memory =
        .ok (live, stats, heap) →
      Sound ⟨(session.afterScan scanning heap).requestAll scanned,
        .scanned session.heap.beginCycle.1 live stats⟩

variable {before after : Moment}

/-- At every sound moment the arena is coherent and every child of a node is allocated. -/
theorem Sound.gapless {moment : Moment} (hsound : moment.Sound) :
    (∃ issued, moment.arena.Coherent issued) ∧ moment.arena.ChildrenAllocated := by
  cases hsound with
  | between hsession => exact ⟨hsession.coherent, hsession.gapless⟩
  | scanning scanning hsession => exact hsession.gapless_atScan scanning
  | scanned scanning scanned hsession hscan =>
      show (∃ issued, Arena.Coherent (Session.arena _) issued) ∧ (Session.arena _).ChildrenAllocated
      rw [hsession.arena_afterScan hscan]
      exact ⟨(hsession.inCycle_atSweep scanning scanned).coherent,
        hsession.gapless_atSweep scanning scanned⟩

/-- **Every step from a sound moment leads to a sound moment.** -/
theorem Sound.step (hsound : before.Sound) (hstep : Step before after) : after.Sound := by
  cases hstep with
  | request session stage asked =>
      cases hsound with
      | between hsession => exact .between (hsession.request asked)
      | @scanning base scanning hsession =>
          -- the gap has one more request at its end
          have hconcat := Session.requestAll_concat base.begun scanning asked
          exact hconcat ▸ Sound.scanning (scanning ++ [asked]) hsession
      | @scanned base live stats heap scanning scanned hsession hscan =>
          have hconcat :=
            Session.requestAll_concat (base.afterScan scanning heap) scanned asked
          exact hconcat ▸ Sound.scanned scanning (scanned ++ [asked]) hsession hscan
  | begin session =>
      cases hsound with
      | between hsession => exact .scanning [] hsession
  | scan hscan =>
      cases hsound with
      | scanning scanning hsession => exact .scanned scanning [] hsession hscan
  | finish elapsed hfinish =>
      cases hsound with
      | scanned scanning scanned hsession hscan => exact .between (hsession.finish hscan hfinish).1

theorem Reached.sound {config : Config} {moment : Moment} (hreached : moment.Reached config) :
    moment.Sound := by
  obtain ⟨memory, hsteps⟩ := hreached
  induction hsteps with
  | refl => exact .between (Session.sound_start config memory)
  | tail _ hstep ih => exact ih.step hstep

/-! ### What a step does to the nodes -/

/-- A step does to the nodes what some requests to the store do, unless it ends a collection:
then it takes nodes away. -/
theorem Sound.arena_step (hsound : before.Sound) (hstep : Step before after) :
    (∃ requests, ∀ handle,
        after.arena.node? handle = (before.arena.applyAll requests).node? handle) ∨
      after.stage = .between ∧ Arena.Extends after.arena before.arena := by
  -- the end of the cycle is the only step in which nodes go
  cases hstep with
  | request session stage asked =>
      refine .inl ⟨(session.nodeRequest? asked).toList, fun handle => ?_⟩
      exact congrArg (Arena.node? · handle) (Session.arena_request session asked)
  | begin session => exact .inl ⟨[], fun _ => rfl⟩
  | scan hscan =>
      cases hsound with
      | scanning scanning hsession =>
          refine .inl ⟨[], fun handle => ?_⟩
          exact congrArg (Arena.node? · handle) (hsession.arena_afterScan hscan [])
  | finish elapsed hfinish =>
      cases hsound with
      | scanned scanning scanned hsession hscan =>
          exact .inr ⟨rfl, (hsession.finish hscan hfinish).2⟩

/-- A step takes no node away, unless it ends a collection, and then it adds none. -/
theorem Sound.nodes_step (hsound : before.Sound) (hstep : Step before after) :
    Arena.Extends before.arena after.arena ∨
      after.stage = .between ∧ Arena.Extends after.arena before.arena := by
  obtain ⟨⟨_, hcoherent⟩, -⟩ := hsound.gapless
  refine (hsound.arena_step hstep).imp_left ?_
  rintro ⟨requests, hsame⟩ handle node hnode
  rw [hsame]
  exact hcoherent.extends_applyAll requests handle node hnode

/-- **No step changes anything below a handle that stays allocated.** -/
theorem Sound.below_step (hsound : before.Sound) (hstep : Step before after)
    {handle other : Handle} {node : Node} (hstays : after.arena.contains handle = true)
    (hbelow : before.arena.Below handle other) (hnode : before.arena.node? other = some node) :
    after.arena.Below handle other ∧ after.arena.node? other = some node := by
  rcases hsound.nodes_step hstep with hextends | ⟨-, hextends⟩
  · exact ⟨hbelow.mono hextends, hextends other node hnode⟩
  · -- what is left has no gaps, so everything below the handle is left too
    have hintact := (hsound.step hstep).gapless.2.intact hstays
    have hleft := (hintact.below_iff hextends).mp hbelow
    obtain ⟨same, hsame⟩ := Arena.contains_iff.mp (hintact other hleft)
    obtain rfl := Option.some.inj (hnode.symm.trans (hextends other same hsame))
    exact ⟨hleft, hsame⟩

theorem Retains.sound {handle : Handle} (hretains : before.Retains handle after)
    (hsound : before.Sound) : after.Sound := by
  induction hretains with
  | refl => exact hsound
  | tail _ hstep ih => exact ih.step hstep.1

theorem Retains.below {handle other : Handle} {node : Node}
    (hretains : before.Retains handle after) (hsound : before.Sound)
    (hbelow : before.arena.Below handle other) (hnode : before.arena.node? other = some node) :
    after.arena.Below handle other ∧ after.arena.node? other = some node := by
  induction hretains with
  | refl => exact ⟨hbelow, hnode⟩
  | tail hsteps hstep ih =>
      exact (Retains.sound hsteps hsound).below_step hstep.1 hstep.2 ih.1 ih.2

theorem Retains.node? {handle : Handle} {node : Node} (hretains : before.Retains handle after)
    (hsound : before.Sound) (hnode : before.arena.node? handle = some node) :
    after.arena.node? handle = some node :=
  (hretains.below hsound .here hnode).2

end Moment

/-! ### Whole collections -/

namespace Session

variable {session final : Session}

theorem steps_of_requestAll (property : Moment → Prop)
    (hkept : ∀ before after, Moment.Step before after → after.stage ≠ .between →
      property before → property after)
    {stage : Stage} (hstage : stage ≠ .between) (requests : List Request)
    (hproperty : property ⟨session, stage⟩) :
    property ⟨session.requestAll requests, stage⟩ ∧
      Relation.ReflTransGen (fun before after => Moment.Step before after ∧ property after)
        ⟨session, stage⟩ ⟨session.requestAll requests, stage⟩ := by
  induction requests generalizing session with
  | nil => exact ⟨hproperty, .refl⟩
  | cons first rest ih =>
      have hstep := Moment.Step.request session stage first
      have hnext := hkept _ _ hstep hstage hproperty
      obtain ⟨hlast, hsteps⟩ := ih hnext
      exact ⟨hlast, .head ⟨hstep, hnext⟩ hsteps⟩

/-- **A collection is a run of steps**, and what holds at its ends and is kept by all steps but
the last holds all along. -/
theorem steps_of_collect (property : Moment → Prop)
    (hkept : ∀ before after, Moment.Step before after → after.stage ≠ .between →
      property before → property after)
    {scanning scanned : List Request} {elapsed : UInt64} {report : Report}
    (hcollect : session.collect scanning scanned elapsed = .ok (report, final))
    (hstart : property ⟨session, .between⟩) (hfinal : property ⟨final, .between⟩) :
    Relation.ReflTransGen (fun before after => Moment.Step before after ∧ property after)
      ⟨session, .between⟩ ⟨final, .between⟩ := by
  obtain ⟨live, stats, heap, swept, hscan, hfinish, rfl⟩ := exists_of_collect hcollect
  have hbegin := Moment.Step.begin session
  have hbegun := hkept _ _ hbegin (by simp) hstart
  obtain ⟨hatScan, hscanning⟩ := steps_of_requestAll property hkept (by simp) scanning hbegun
  -- the scan is a step of its own between the requests of the two gaps
  have hread : Moment.Step ⟨session.atScan scanning, .scanning session.heap.beginCycle.1⟩
      ⟨session.afterScan scanning heap, .scanned session.heap.beginCycle.1 live stats⟩ :=
    .scan hscan
  have hafterScan := hkept _ _ hread (by simp) hatScan
  obtain ⟨-, hscanned⟩ := steps_of_requestAll property hkept (by simp) scanned hafterScan
  have hend := Moment.Step.finish elapsed hfinish
  exact .head ⟨hbegin, hbegun⟩
    ((hscanning.tail ⟨hread, hafterScan⟩).trans (hscanned.tail ⟨hend, hfinal⟩))

/-- A collection that leaves a node allocated has had it allocated all along. -/
theorem retains_of_collect (hsound : session.Sound) {scanning scanned : List Request}
    {elapsed : UInt64} {report : Report}
    (hcollect : session.collect scanning scanned elapsed = .ok (report, final)) {handle : Handle}
    (hbefore : session.arena.contains handle = true)
    (hafter : final.arena.contains handle = true) :
    Moment.Retains handle ⟨session, .between⟩ ⟨final, .between⟩ := by
  have hact : session.act (.collect scanning scanned elapsed) = .ok final := by
    simp only [act, hcollect, Except.map]
  have hfinal : final.Sound := hsound.act hact
  let allocated : Moment → Prop := fun moment =>
    moment.Sound ∧ moment.arena.contains handle = true
  -- only the last step of a collection takes nodes away
  have hkept : ∀ before after, Moment.Step before after → after.stage ≠ .between →
      allocated before → allocated after := by
    rintro before after hstep hstage ⟨hmoment, hcontains⟩
    refine ⟨hmoment.step hstep, ?_⟩
    rcases hmoment.nodes_step hstep with hextends | ⟨hbetween, -⟩
    · exact hextends.contains hcontains
    · exact absurd hbetween hstage
  have hsteps := steps_of_collect allocated hkept hcollect ⟨.between hsound, hbefore⟩
    ⟨.between hfinal, hafter⟩
  exact Relation.ReflTransGen.mono (fun _ _ hstep => ⟨hstep.1, hstep.2.2⟩) _ _ hsteps

/-- **Every session that is reached is reached as a moment between collections.** -/
theorem Reached.moment {config : Config} (hreached : session.Reached config) :
    Moment.Reached config ⟨session, .between⟩ := by
  -- an action on the session is nothing, one step or the steps of one collection
  induction hreached with
  | start memory => exact ⟨memory, .refl⟩
  | act action _ hact ih =>
      obtain ⟨memory, hsteps⟩ := ih
      obtain rfl | ⟨asked, rfl⟩ | ⟨scanning, scanned, elapsed, report, hcollect⟩ := act_cases hact
      · exact ⟨memory, hsteps⟩
      · exact ⟨memory, hsteps.tail (.request _ .between asked)⟩
      · have hrun := steps_of_collect (fun _ => True) (fun _ _ _ _ _ => trivial) hcollect
          trivial trivial
        have hsubset := Relation.ReflTransGen.mono (fun _ _ hstep => hstep.1) _ _ hrun
        exact ⟨memory, hsteps.trans hsubset⟩

/-! ### A collection that retains a handle -/

theorem reached_rootedNegation : rootedNegation.Reached .default :=
  (Reached.start .zeroed).requestAll _

theorem node?_negation :
    rootedNegation.arena.node? ⟨1, 1⟩ = some ⟨.unary .neg, [⟨0, 1⟩], 8⟩ := by cbv

/-- The negation that stands in a region is retained by a collection. -/
theorem retains_negation :
    ∃ report final, rootedNegation.collect [] [] 0 = .ok (report, final) ∧
      Moment.Retains ⟨1, 1⟩ ⟨rootedNegation, .between⟩ ⟨final, .between⟩ := by
  have hsound := reached_rootedNegation.sound
  have hwords : rootedNegation.wordsRead [] = [Handle.word ⟨1, 1⟩] := by cbv
  have hroot : (rootedNegation.atScan []).arena.resolve? (Handle.word ⟨1, 1⟩) =
      some ⟨1, 1⟩ := by cbv
  have hretained : rootedNegation.Retained [] [] ⟨1, 1⟩ := by
    refine .inl ⟨Handle.word ⟨1, 1⟩, ?_, ⟨1, 1⟩, hroot, .here⟩
    rw [hwords]
    exact List.mem_singleton_self _
  obtain ⟨report, final, hcollect, -, hcontains, -⟩ := hsound.collect [] [] 0
  exact ⟨report, final, hcollect, retains_of_collect hsound hcollect
    (Arena.contains_of_node? node?_negation) ((hcontains _).mpr hretained)⟩

end Session

end ExprHeap
