import ExprHeap.Proofs.Moments

/-!
# Collections without faults

A collection breaks off with a fault where a promise inside the heap is broken: the scan meets a
child that is not allocated, a slot is marked in two generations, or the sweep has taken a node
that the scan found.  The scan does not look whether a child is there before it marks it, and a
word in a region may be anything, so a single gap below a single root would do.

There are no gaps.  A session is *at rest* when it is sound and no phase of a collection is under
way.  A collection of a session at rest succeeds and leaves a session at rest, whatever is asked
in its gaps (`AtRest.collect`), and so does every other action; hence a run from an empty heap
never meets a fault (`runs_without_fault`).
-/

namespace ExprHeap

/-- A cycle that ends leaves the collector idle. -/
theorem Heap.phase_of_finishCycle {heap final : Heap} {cycle : Cycle} {live : LiveSet}
    {stats : ScanStats} {elapsed : UInt64} {report : Report}
    (hfinish : heap.finishCycle cycle live stats elapsed = .ok (report, final)) :
    final.metrics.phase = .idle := by
  obtain ⟨-, -, _, rfl⟩ := exists_of_finishCycle hfinish
  rfl

namespace Session

variable {session : Session}

theorem metrics_request (session : Session) (asked : Request) :
    (session.request asked).heap.metrics = session.heap.metrics := by
  obtain ⟨_, _, _, _, hframe⟩ := session.request_frame asked
  rw [hframe]

/-! ### Sessions at rest -/

/-- What holds of a session that no collection is at work on. -/
structure AtRest (session : Session) : Prop where
  sound : session.Sound
  phase : session.heap.metrics.phase = .idle

theorem atRest_start (config : Config) (memory : Memory) :
    AtRest ⟨.empty config, memory⟩ where
  sound := sound_start config memory
  phase := rfl

theorem AtRest.request (hrest : session.AtRest) (asked : Request) :
    (session.request asked).AtRest where
  sound := hrest.sound.request asked
  phase := (congrArg Metrics.phase (metrics_request session asked)).trans hrest.phase

/-- **A collection of a session at rest succeeds, and leaves a session at rest.** -/
theorem AtRest.collect (hrest : session.AtRest) (scanning scanned : List Request)
    (elapsed : UInt64) :
    ∃ report final, session.collect scanning scanned elapsed = .ok (report, final) ∧
      final.AtRest := by
  obtain ⟨report, final, hcollect, hsound, -⟩ := hrest.sound.collect scanning scanned elapsed
  -- that the session is sound does not tell its phase, which the last step of the cycle sets
  obtain ⟨_, _, _, swept, -, hfinish, rfl⟩ := exists_of_collect hcollect
  exact ⟨report, _, hcollect, hsound, Heap.phase_of_finishCycle hfinish⟩

theorem AtRest.act (hrest : session.AtRest) (action : Action) :
    ∃ next, session.act action = .ok next ∧ next.AtRest := by
  -- a collection that is due runs as one that is asked for
  have hcollect : ∀ scanning scanned elapsed, ∃ next,
      (session.collect scanning scanned elapsed).map Prod.snd = .ok next ∧ next.AtRest := by
    intro scanning scanned elapsed
    obtain ⟨report, final, hok, hfinal⟩ := hrest.collect scanning scanned elapsed
    exact ⟨final, congrArg (Except.map Prod.snd) hok, hfinal⟩
  cases action with
  | request asked => exact ⟨session.request asked, rfl, hrest.request asked⟩
  | collect scanning scanned elapsed => exact hcollect scanning scanned elapsed
  | maybeCollect scanning scanned elapsed =>
      by_cases hdue : session.heap.collectionDue = true
      · obtain ⟨next, hnext, hatRest⟩ := hcollect scanning scanned elapsed
        exact ⟨next, (if_pos hdue).trans hnext, hatRest⟩
      · exact ⟨session, if_neg hdue, hrest⟩

theorem AtRest.foldlM_act (hrest : session.AtRest) (actions : List Action) :
    ∃ final, actions.foldlM Session.act session = .ok final ∧ final.AtRest := by
  -- every action finds the session at rest, which is all that the next one needs
  induction actions generalizing session with
  | nil => exact ⟨session, rfl, hrest⟩
  | cons action rest ih =>
      obtain ⟨next, hact, hnext⟩ := hrest.act action
      obtain ⟨final, hrun, hfinal⟩ := ih hnext
      refine ⟨final, ?_, hfinal⟩
      rw [List.foldlM_cons, hact]
      exact hrun

/-- **No run meets a fault.**  Whatever the requests and collections, from an empty heap and any
memory, and whatever is asked in the gaps of the collections: the run goes through to its end,
where the barrier is off and the collector idle.  That holds of every prefix of a run as well, and
any further collection succeeds and leaves it so again.  No scan meets a marked node that is
missing, the live set is never given a second generation of an index, and no sweep takes a live
node, as each of the three is a fault. -/
theorem runs_without_fault (config : Config) (memory : Memory) (actions : List Action) :
    ∃ final, actions.foldlM Session.act ⟨.empty config, memory⟩ = .ok final ∧
      final.arena.cycleActive = false ∧ final.heap.metrics.phase = .idle ∧
      ∀ scanning scanned elapsed, ∃ report after,
        final.collect scanning scanned elapsed = .ok (report, after) ∧
          after.arena.cycleActive = false ∧ after.heap.metrics.phase = .idle := by
  obtain ⟨final, hrun, hfinal⟩ := (atRest_start config memory).foldlM_act actions
  refine ⟨final, hrun, hfinal.sound.idle, hfinal.phase, fun scanning scanned elapsed => ?_⟩
  obtain ⟨report, after, hcollect, hafter⟩ := hfinal.collect scanning scanned elapsed
  exact ⟨report, after, hcollect, hafter.sound.idle, hafter.phase⟩

end Session

end ExprHeap
