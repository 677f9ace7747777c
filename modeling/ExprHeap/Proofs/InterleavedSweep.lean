import ExprHeap.Proofs.Protection

/-!
# The barrier through an interleaved sweep

The sweep gives up the store between batches, so requests come between any two
slots, some slots may be swept twice, and slots that it has passed are taken
again.  `Store.Sweeping` is what every step of a disciplined run preserves: the
cycle goes on, the protected nodes are closed under children, and an allocated
node that is not protected stands in a slot that is still to be swept.

The main statement puts a run together from its beginning: a store without gaps,
requests while the regions are still to be read, the scan, and any disciplined
run of steps after it.
-/

namespace ExprHeap

namespace Store

variable {store : Store} {epoch highWater : Nat} {isLive : Handle → Bool}

/-- At the moment of each step the handles that it names are protected. -/
def Disciplined (epoch : Nat) (isLive : Handle → Bool) : Store → List SweepStep → Prop
  | _, [] => True
  | store, step :: rest =>
    (∀ handle ∈ step.arguments, store.arena.Protected isLive handle) ∧
      Disciplined epoch isLive (store.perform (step.call epoch isLive)) rest

/-- The state of a store after the steps `done` of a sweep below `highWater`. -/
structure Sweeping (epoch highWater : Nat) (isLive : Handle → Bool) (done : List SweepStep)
    (store : Store) : Prop where
  cycle : store.arena.InCycle epoch
  closed : store.arena.ProtectedClosed isLive
  unswept : ∀ handle, store.arena.contains handle = true →
    store.arena.Protected isLive handle ∨
      handle.index.toNat < highWater ∧ .reclaim handle.index.toNat ∉ done

/-- No step ends the protection of a node. -/
theorem protected_perform (hcycle : store.arena.InCycle epoch) (step : SweepStep)
    {handle : Handle} (hprotected : store.arena.Protected isLive handle) :
    (store.perform (step.call epoch isLive)).arena.Protected isLive handle := by
  cases step with
  | request asked =>
      rw [SweepStep.call, arena_request]
      exact hcycle.protected_apply asked hprotected
  | reclaim index =>
      rw [SweepStep.call, arena_reclaim]
      exact (hcycle.protected_reclaim_iff index).mpr hprotected

theorem protected_sweepSteps (hcycle : store.arena.InCycle epoch) (steps : List SweepStep)
    {handle : Handle} (hprotected : store.arena.Protected isLive handle) :
    (store.sweepSteps epoch isLive steps).arena.Protected isLive handle := by
  induction steps generalizing store with
  | nil => exact hprotected
  | cons step rest ih =>
      exact ih (inCycle_perform hcycle step) (protected_perform hcycle step hprotected)

/-! ### One step -/

theorem Sweeping.request {done : List SweepStep}
    (hsweeping : store.Sweeping epoch highWater isLive done) (asked : NodeRequest)
    (harguments : ∀ handle ∈ asked.arguments, store.arena.Protected isLive handle) :
    (store.perform (.request asked)).Sweeping epoch highWater isLive
      (done ++ [.request asked]) := by
  obtain ⟨_, hcoherent⟩ := hsweeping.cycle.coherent
  have harena := arena_request store asked
  refine
    { cycle := harena ▸ hsweeping.cycle.apply asked
      closed := harena ▸ hsweeping.closed.apply hsweeping.cycle harguments
      unswept := ?_ }
  intro handle hcontains
  rw [harena] at hcontains ⊢
  -- what is allocated now was allocated before, or the request has brought it about
  rcases (hcoherent.contains_apply_iff asked).mp hcontains with hold | hborn
  · rcases hsweeping.unswept handle hold with hprotected | ⟨hindex, hunswept⟩
    · exact .inl (hsweeping.cycle.protected_apply asked hprotected)
    · exact .inr ⟨hindex, by simpa using hunswept⟩
  · have hkept := (hcoherent.kept_apply_iff hsweeping.cycle.closed hsweeping.cycle.active
      asked).mpr (.inr (.inl hborn))
    exact .inl hkept.protected

theorem Sweeping.reclaim {done : List SweepStep}
    (hsweeping : store.Sweeping epoch highWater isLive done) (index : Nat) :
    (store.perform (.reclaim epoch isLive index)).Sweeping epoch highWater isLive
      (done ++ [.reclaim index]) := by
  obtain ⟨_, hcoherent⟩ := hsweeping.cycle.coherent
  have harena := arena_reclaim store epoch isLive index
  refine
    { cycle := harena ▸ hsweeping.cycle.reclaim isLive index
      closed := harena ▸ hsweeping.closed.reclaim hsweeping.cycle index
      unswept := ?_ }
  intro handle hcontains
  rw [harena] at hcontains ⊢
  rw [hsweeping.cycle.protected_reclaim_iff]
  -- in the slot that is swept now nothing else can be left
  by_cases hindex : handle.index.toNat = index
  · subst hindex
    exact .inl (hsweeping.cycle.protected_of_contains_reclaim hcontains)
  · obtain ⟨node, hnode⟩ := Arena.contains_iff.mp hcontains
    have hbefore := Arena.contains_of_node? (hcoherent.node?_of_reclaim hnode)
    exact (hsweeping.unswept handle hbefore).imp_right fun ⟨hlt, hunswept⟩ =>
      ⟨hlt, by simp [hunswept, hindex]⟩

/-! ### A run of steps -/

theorem Sweeping.sweepSteps {done steps : List SweepStep}
    (hsweeping : store.Sweeping epoch highWater isLive done)
    (hdisciplined : store.Disciplined epoch isLive steps) :
    (store.sweepSteps epoch isLive steps).Sweeping epoch highWater isLive (done ++ steps) := by
  -- each step is allowed by what the steps before it have left, which is what the induction carries
  induction steps generalizing store done with
  | nil => simpa using hsweeping
  | cons step rest ih =>
      obtain ⟨harguments, hrest⟩ := hdisciplined
      rw [List.append_cons]
      refine ih ?_ hrest
      cases step with
      | request asked => exact hsweeping.request asked harguments
      | reclaim index => exact hsweeping.reclaim index

theorem Disciplined.of_append {first second : List SweepStep}
    (hdisciplined : store.Disciplined epoch isLive (first ++ second)) :
    store.Disciplined epoch isLive first ∧
      (store.sweepSteps epoch isLive first).Disciplined epoch isLive second := by
  induction first generalizing store with
  | nil => exact ⟨trivial, hdisciplined⟩
  | cons step rest ih =>
      obtain ⟨harguments, hrest⟩ := hdisciplined
      obtain ⟨hfirst, hsecond⟩ := ih hrest
      exact ⟨⟨harguments, hfirst⟩, hsecond⟩

/-- What an allocation answers with is kept. -/
theorem kept_allocate (hcycle : store.arena.InCycle epoch) {node : Node}
    {allocation : Allocation} {after : Store}
    (hallocate : store.allocate node = .ok (allocation, after)) :
    after = store.perform (.request (.allocate node)) ∧ after.arena.Kept allocation.handle := by
  obtain ⟨_, hcoherent⟩ := hcycle.coherent
  have hafter : after = store.perform (.request (.allocate node)) := by
    simp only [perform, hallocate]
  refine ⟨hafter, ?_⟩
  rw [hafter, arena_request]
  refine (hcoherent.kept_apply_iff hcycle.closed hcycle.active _).mpr (.inr ?_)
  have hanswer := arena_allocate hallocate
  -- a shared node is shaded by the request, and a fresh one is born in the cycle
  cases allocation with
  | shared handle =>
      have hroots : handle ∈ store.arena.rootsOf (.allocate node) := by
        simp [Arena.rootsOf, Arena.shadedBy, hanswer]
      exact .inr ⟨⟨handle, hroots, .here⟩, hcoherent.contains_of_mem_rootsOf hroots⟩
  | fresh handle =>
      have hborn : store.arena.bornBy (.allocate node) = some handle := by
        simp only [Arena.bornBy, Arena.newborn?, hanswer]
      exact .inl hborn

/-! ## From the beginning of a cycle -/

/-- What the store is like when the regions have been read. -/
theorem sweeping_of_exact {issued : Nat} (hcoherent : store.arena.Coherent issued)
    (hgapless : store.arena.ChildrenAllocated) (early : List NodeRequest) {words : List UInt64}
    {live : LiveSet} (hexact : live.Exact (store.openCycle early).arena words) :
    (store.openCycle early).Sweeping (store.arena.epoch + 1) store.arena.table.size
      live.contains [] := by
  rw [arena_openCycle] at hexact
  have harena := arena_openCycle store early
  have hbegun := hcoherent.beginCycle
  have hcycle := hcoherent.inCycle_beginCycle.applyAll early
  have hgapless' := hbegun.childrenAllocated_applyAll hgapless early
  refine
    { cycle := harena ▸ hcycle
      closed := harena ▸ hcycle.protectedClosed_of_exact hgapless' hexact
      unswept := ?_ }
  intro handle hcontains
  rw [harena] at hcontains ⊢
  -- a node that is older than the cycle stands below the high water mark
  rcases (hbegun.contains_applyAll_iff early).mp hcontains with hold | hborn
  · obtain ⟨entry, hentry⟩ := Arena.exists_entry_of_contains hold
    have hindex := Nat.lt_of_lt_of_le (hbegun.index_lt hentry) hbegun.issued_le_size
    exact .inr ⟨hindex, by simp⟩
  · have hkept := (hbegun.kept_applyAll_iff hgapless hcoherent.barrierClosed_beginCycle rfl
      early).mpr (.inr (.inl hborn))
    exact .inl hkept.protected

/-- **The barrier holds throughout an interleaved sweep.**  Begin a cycle in a store without
gaps.  The scan succeeds, and after any disciplined run of steps every child of a protected node
is allocated and protected; no slot that the sweep might go over next takes a protected node
away; what an allocation has answered with since the scan is protected with everything below it;
and once the sweep has gone over every slot there was when the cycle began, the allocated nodes
are the protected ones. -/
theorem barrier_holds_through_sweep {capacity : Nat} {store : Store}
    (hreached : store.Reached capacity) (hgapless : store.arena.ChildrenAllocated)
    (early : List NodeRequest) (memory : Memory) (chunk : Nat) (regions : List Region) :
    ∃ live stats,
      scanRegions (store.openCycle early).arena memory chunk regions = .ok (live, stats) ∧
      ∀ steps, (store.openCycle early).Disciplined (store.arena.epoch + 1) live.contains steps →
        let sweepTo := (store.openCycle early).sweepSteps (store.arena.epoch + 1) live.contains
        (sweepTo steps).arena.ProtectedClosed live.contains ∧
        (∀ index handle, (sweepTo steps).arena.Protected live.contains handle →
          (sweepTo (steps ++ [.reclaim index])).arena.node? handle =
            (sweepTo steps).arena.node? handle) ∧
        (∀ before node after allocation answered,
          steps = before ++ .request (.allocate node) :: after →
          (sweepTo before).allocate node = .ok (allocation, answered) →
          ∀ handle, answered.arena.Below allocation.handle handle →
            (sweepTo steps).arena.Protected live.contains handle) ∧
        ((∀ index < store.arena.table.size, .reclaim index ∈ steps) →
          ∀ handle, (sweepTo steps).arena.contains handle = true ↔
            (sweepTo steps).arena.Protected live.contains handle) := by
  obtain ⟨issued, hcoherent⟩ := hreached.coherent
  have hgapless' := hcoherent.beginCycle.childrenAllocated_applyAll hgapless early
  obtain ⟨_, hopen⟩ := hcoherent.beginCycle.applyAll early
  rw [← arena_openCycle] at hgapless' hopen
  obtain ⟨live, stats, hscan, hexact⟩ := exact_scanRegions hopen memory chunk regions
    fun _ _ root hroot => hgapless'.intact (Arena.contains_of_resolve? hroot)
  refine ⟨live, stats, hscan, fun steps hdisciplined => ?_⟩
  have hsweeping := sweeping_of_exact hcoherent hgapless early hexact
  have hnow := hsweeping.sweepSteps hdisciplined
  refine ⟨hnow.closed, fun index handle hprotected => ?_, ?_, fun hall handle => ?_⟩
  · show ((store.openCycle early).sweepSteps _ _ (steps ++ [.reclaim index])).arena.node? handle =
      _
    rw [sweepSteps_append]
    show (Store.perform _ (.reclaim _ _ index)).arena.node? handle = _
    rw [arena_reclaim]
    exact hnow.cycle.node?_reclaim_of_protected index hprotected
  · -- everything below the answer is protected at once, and no later step ends that
    rintro before node after allocation answered rfl hallocate handle hbelow
    have hmiddle := hsweeping.sweepSteps hdisciplined.of_append.1
    obtain ⟨hargument, -⟩ := hdisciplined.of_append.2
    obtain ⟨rfl, hkept⟩ := kept_allocate hmiddle.cycle hallocate
    have hafter := hmiddle.request (.allocate node) hargument
    have hprotected := protected_sweepSteps hafter.cycle after
      (hafter.closed.below hkept.protected hbelow)
    show ((store.openCycle early).sweepSteps _ _ (before ++ _)).arena.Protected _ handle
    rw [sweepSteps_append]
    exact hprotected
  · refine ⟨fun hcontains => ?_, And.left⟩
    rcases hnow.unswept handle hcontains with hprotected | ⟨hindex, hunswept⟩
    · exact hprotected
    · exact absurd (by simpa using hall _ hindex) hunswept

/-- A byte of input and its negation, allocated one after the other. -/
def byteAndNegation : List NodeRequest :=
  [.allocate ⟨.input 0, [], 8⟩, .allocate ⟨.unary .neg, [⟨0, 1⟩], 8⟩]

/-- The store that holds the two. -/
def withNegation : Store := (Store.empty 2).performAll (byteAndNegation.map .request)

theorem reached_withNegation : withNegation.Reached 2 := ⟨_, rfl⟩

theorem childrenAllocated_withNegation : withNegation.arena.ChildrenAllocated := by
  rw [withNegation, arena_performAll_request]
  refine (Arena.coherent_empty 2).childrenAllocated_applyAll ?_ _
  intro parent node hnode
  simp [Arena.empty, Arena.node?, Table.entryOf?] at hnode

/-- With no region, both nodes are resurrected by equal requests, the second of which names the
answer to the first. -/
theorem barrier_holds_for_resurrected_nodes :
    withNegation.Reached 2 ∧ withNegation.arena.ChildrenAllocated ∧
      ∃ live stats, scanRegions (withNegation.openCycle []).arena .zeroed 1 [] =
          .ok (live, stats) ∧
        let steps := byteAndNegation.map SweepStep.request ++ [.reclaim 1, .reclaim 0]
        let swept := (withNegation.openCycle []).sweepSteps (withNegation.arena.epoch + 1)
          live.contains steps
        (withNegation.openCycle []).Disciplined (withNegation.arena.epoch + 1) live.contains
            steps ∧
          swept.arena.ProtectedClosed live.contains ∧
          ∀ handle, swept.arena.contains handle = true ↔
            swept.arena.Protected live.contains handle := by
  obtain ⟨live, stats, hscan, hrun⟩ := barrier_holds_through_sweep reached_withNegation
    childrenAllocated_withNegation [] .zeroed 1 []
  refine ⟨reached_withNegation, childrenAllocated_withNegation, live, stats, hscan, ?_⟩
  have hkept : ((withNegation.openCycle []).perform
      (.request (.allocate ⟨.input 0, [], 8⟩))).arena.Kept ⟨0, 1⟩ :=
    ⟨⟨⟨.input 0, [], 8⟩, 0, 1⟩, by cbv, by cbv⟩
  have hsize : withNegation.arena.table.size = 2 := by cbv
  have hdisciplined : (withNegation.openCycle []).Disciplined (withNegation.arena.epoch + 1)
      live.contains (byteAndNegation.map SweepStep.request ++ [.reclaim 1, .reclaim 0]) := by
    refine ⟨List.forall_mem_nil _, fun handle hhandle => ?_, List.forall_mem_nil _,
      List.forall_mem_nil _, trivial⟩
    rw [List.mem_singleton.mp hhandle]
    exact hkept.protected
  obtain ⟨hclosed, -, -, hall⟩ := hrun _ hdisciplined
  refine ⟨hdisciplined, hclosed, hall ?_⟩
  rw [hsize]
  intro index hindex
  obtain rfl | rfl : index = 0 ∨ index = 1 := by omega
  · simp
  · simp

end Store

end ExprHeap
