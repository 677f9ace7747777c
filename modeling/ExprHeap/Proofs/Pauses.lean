import ExprHeap.Proofs.Collections
import ExprHeap.Proofs.Producers
import ExprHeap.Proofs.Trees

/-!
# What a pause leaves alone

Between scopes a producer has nothing but its slots.  As long as these lie in
registered regions, a collection reads their words, so what the handles in them
denote is still denoted when it is over: `Keeps`.

`Ready` is what this needs of a session, and all that a producer and the pauses
between its scopes do keeps it.
-/

namespace ExprHeap

/-! ### The slots of regions -/

/-- The addresses of the slots in regions. -/
def slotsIn (regions : List Region) : List UInt64 :=
  regions.flatMap fun region => (List.range region.length.toNat).map region.address

theorem wordsIn_eq (memory : Memory) (regions : List Region) :
    wordsIn memory regions = (slotsIn regions).map memory.read := by
  simp only [wordsIn, slotsIn, List.map_flatMap, List.map_map]
  rfl

theorem mem_slotsIn {regions : List Region} {slot : UInt64} :
    slot ∈ slotsIn regions ↔
      ∃ region ∈ regions, ∃ number < region.length.toNat, region.address number = slot := by
  simp [slotsIn]

/-- To register a region takes away no slot. -/
theorem RegionTable.slotsIn_register (table : RegionTable) (region : Region) {slot : UInt64}
    (hslot : slot ∈ slotsIn (region :: table.regions)) :
    slot ∈ slotsIn (table.apply (.register region)).regions := by
  obtain ⟨origin, horigin, number, hnumber, rfl⟩ := mem_slotsIn.mp hslot
  -- a change of kind leaves the slots of a region where they are
  have hmatch : ∃ known ∈ (table.apply (.register region)).regions,
      known.base = origin.base ∧ known.length = origin.length := by
    simp only [apply]
    split
    · rename_i hany
      obtain ⟨known, hknown, hbase, hlength⟩ : ∃ known ∈ table.regions,
          known.base = origin.base ∧ known.length = origin.length := by
        rcases List.mem_cons.mp horigin with rfl | hold
        · simpa [Region.covers] using hany
        · exact ⟨origin, hold, rfl, rfl⟩
      refine ⟨_, List.mem_map_of_mem hknown, ?_⟩
      split
      · exact ⟨hbase, hlength⟩
      · exact ⟨hbase, hlength⟩
    · rcases List.mem_cons.mp horigin with rfl | hold
      · exact ⟨origin, by simp, rfl, rfl⟩
      · exact ⟨origin, by simp [hold], rfl, rfl⟩
  obtain ⟨known, hknown, hbase, hlength⟩ := hmatch
  refine mem_slotsIn.mpr ⟨known, hknown, number, hlength ▸ hnumber, ?_⟩
  rw [Region.address, Region.address, hbase]

namespace Registry

/-- A registration is turned down for a bad layout only. -/
theorem slotsIn_register (registry : Registry) {region : Region}
    (hmake : Region.make region.base region.length region.kind = .ok region) :
    ∃ after, registry.register region.base region.length region.kind = .ok after ∧
      ∀ slot, slot ∈ slotsIn [region] ∨ slot ∈ slotsIn registry.settle.2.regions →
        slot ∈ slotsIn after.settle.2.regions := by
  unfold register
  rw [hmake]
  -- an empty region is accepted without being listed, and has no slots to lose
  by_cases hempty : region.isEmpty = true
  · refine ⟨registry, by simp [hempty], ?_⟩
    rintro slot (hnew | hold)
    · have hlength : region.length = 0 := by simpa [Region.isEmpty] using hempty
      simp [slotsIn, hlength] at hnew
    · exact hold
  · refine ⟨{ registry with queue := registry.queue ++ [.register region] }, by simp [hempty], ?_⟩
    intro slot hslot
    simp only [settle, List.foldl_append, List.foldl_cons, List.foldl_nil]
    refine RegionTable.slotsIn_register _ region ?_
    rcases hslot with hnew | hold
    · simp only [slotsIn, List.flatMap_cons, List.mem_append]
      exact .inl (by simpa [slotsIn] using hnew)
    · simp only [slotsIn, List.flatMap_cons, List.mem_append]
      exact .inr hold

end Registry

namespace Session

variable {slots : List UInt64} {session after : Session}

/-! ### Sessions with registered slots -/

/-- A sound session, with the slots in regions that a collection would read. -/
structure Ready (slots : List UInt64) (session : Session) : Prop where
  sound : session.Sound
  registered : ∀ slot ∈ slots, slot ∈ slotsIn session.heap.snapshotRegions

theorem Ready.of_registry_eq (hready : session.Ready slots) (hsound : after.Sound)
    (hregistry : after.heap.registry = session.heap.registry) : after.Ready slots where
  sound := hsound
  registered := by
    unfold Heap.snapshotRegions Heap.settle
    rw [hregistry]
    exact hready.registered

theorem Ready.write (hready : session.Ready slots) (address word : UInt64) :
    (session.request (.write address word)).Ready slots :=
  hready.of_registry_eq (hready.sound.request _) rfl

theorem Ready.build (hready : session.Ready slots) (construction : Construction) :
    (session.request (.build construction)).Ready slots := by
  refine hready.of_registry_eq (hready.sound.request _) ?_
  simp only [Session.request]
  cases hbuild : session.heap.build construction with
  | error error => rfl
  | ok answer =>
      obtain ⟨_, after⟩ := answer
      obtain ⟨_, _, rfl⟩ := exists_of_build hbuild
      rfl

theorem Ready.register (hready : session.Ready slots) {region : Region}
    (hmake : Region.make region.base region.length region.kind = .ok region) :
    (session.request (.register region.base region.length region.kind)).Ready
      (slots ++ slotsIn [region]) := by
  refine ⟨hready.sound.request _, ?_⟩
  obtain ⟨registry, hregister, hslots⟩ :=
    Registry.slotsIn_register session.heap.registry hmake
  intro slot hslot
  have hslot : slot ∈ slotsIn [region] ∨ slot ∈ slotsIn session.heap.registry.settle.2.regions :=
    (List.mem_append.mp hslot).symm.imp_right (hready.registered slot)
  simp only [Session.request, Heap.register, hregister, Except.map]
  exact hslots slot hslot

theorem Ready.registerAll (hready : session.Ready slots) {regions : List Region}
    (hmake : ∀ region ∈ regions, Region.make region.base region.length region.kind = .ok region) :
    (session.requestAll (regions.map fun region =>
      .register region.base region.length region.kind)).Ready (slots ++ slotsIn regions) := by
  induction regions generalizing slots session with
  | nil => simpa [slotsIn] using hready
  | cons region rest ih =>
      have hnext := ih (hready.register (hmake region List.mem_cons_self))
        fun other hother => hmake other (List.mem_cons_of_mem _ hother)
      simpa [slotsIn] using hnext

/-- The slots of regions that have been registered with an empty heap are registered. -/
theorem ready_withRegions (config : Config) (memory : Memory) {regions : List Region}
    (hmake : ∀ region ∈ regions, Region.make region.base region.length region.kind = .ok region) :
    (withRegions config memory regions).Ready (slotsIn regions) := by
  have hstart : Ready [] ⟨.empty config, memory⟩ :=
    ⟨sound_start config memory, fun slot hslot => by cases hslot⟩
  exact hstart.registerAll hmake

theorem memory_withRegions (config : Config) (memory : Memory) (regions : List Region) :
    (withRegions config memory regions).memory = memory := by
  unfold withRegions
  generalize Heap.empty config = heap
  induction regions generalizing heap with
  | nil => rfl
  | cons region rest ih =>
      rw [List.map_cons, requestAll_cons]
      simp only [Session.request]
      split
      · exact ih _
      · exact ih _

/-! ### Pauses -/

/-- Later on, the slots still hold the same handles, and these still denote what they did. -/
structure Keeps (slots : List UInt64) (before after : Session) : Prop where
  memory : after.memory = before.memory
  denotes : ∀ slot ∈ slots, ∀ handle, Handle.ofWord? (before.memory.read slot) = some handle →
    ∀ tree, before.arena.Denotes tree handle → after.arena.Denotes tree handle

theorem Keeps.refl (slots : List UInt64) (session : Session) : Keeps slots session session :=
  ⟨rfl, fun _ _ _ _ _ hdenotes => hdenotes⟩

theorem Keeps.trans {first second third : Session} (hfirst : Keeps slots first second)
    (hsecond : Keeps slots second third) : Keeps slots first third where
  memory := hsecond.memory.trans hfirst.memory
  denotes slot hslot handle hhandle tree hdenotes :=
    hsecond.denotes slot hslot handle (hfirst.memory ▸ hhandle) tree
      (hfirst.denotes slot hslot handle hhandle tree hdenotes)

/-- What a collection leaves that runs with no requests in its gaps. -/
structure CollectedTo (before : Session) (after : Heap) : Prop where
  sound : Session.Sound { before with heap := after }
  extends_arena : Arena.Extends after.store.arena before.arena
  contains_iff : ∀ handle, after.store.arena.contains handle = true ↔
    before.arena.Reachable (wordsIn before.memory before.heap.snapshotRegions) handle
  regions_eq : after.snapshotRegions = before.heap.snapshotRegions

/-- A collection between scopes succeeds, and leaves what the registered slots reach. -/
theorem Sound.collect_alone (hsound : session.Sound) (elapsed : UInt64) :
    ∃ report heap, session.heap.collect session.memory elapsed = .ok (report, heap) ∧
      session.CollectedTo heap := by
  obtain ⟨report, final, hcollect, hsound, hcontains, hnode, -, hregistry, -⟩ :=
    hsound.collect [] [] elapsed
  rw [collect_nil_nil] at hcollect
  obtain ⟨heap, hheap, rfl⟩ : ∃ heap, session.heap.collect session.memory elapsed =
      .ok (report, heap) ∧ { session with heap := heap } = final := by
    cases hheap : session.heap.collect session.memory elapsed with
    | error fault =>
        rw [hheap] at hcollect
        cases hcollect
    | ok found =>
        rw [hheap] at hcollect
        obtain ⟨rfl, rfl⟩ := Prod.mk.inj (Except.ok.inj hcollect)
        exact ⟨found.2, rfl, rfl⟩
  refine ⟨report, heap, hheap, hsound, hnode, fun handle => (hcontains handle).trans ?_, ?_⟩
  · -- to begin a cycle changes neither the nodes nor the regions
    have hbelow : ∀ root, (session.atScan []).arena.Below root handle ↔
        session.arena.Below root handle :=
      fun root => ⟨.mono (Arena.Extends.refl _), .mono (Arena.Extends.refl _)⟩
    constructor
    · rintro (⟨word, hword, root, hroot, hpath⟩ | hborn | ⟨root, hroot, -⟩)
      · exact ⟨word, hword, root, hroot, (hbelow root).mp hpath⟩
      · cases hborn
      · cases hroot
    · rintro ⟨word, hword, root, hroot, hpath⟩
      exact .inl ⟨word, hword, root, hroot, (hbelow root).mpr hpath⟩
  · unfold Heap.snapshotRegions Heap.settle
    rw [hregistry]
    rfl

/-- What registered slots denote is left, down to the leaves. -/
theorem CollectedTo.keeps {heap : Heap} (hcollected : session.CollectedTo heap)
    (hregistered : ∀ slot ∈ slots, slot ∈ slotsIn session.heap.snapshotRegions) :
    Keeps slots session { session with heap := heap } := by
  refine ⟨rfl, fun slot hslot root hroot tree hdenotes => ?_⟩
  have hword : session.memory.read slot ∈
      wordsIn session.memory session.heap.snapshotRegions := by
    rw [wordsIn_eq]
    exact List.mem_map_of_mem (hregistered slot hslot)
  have hresolve : session.arena.resolve? (session.memory.read slot) = some root := by
    rw [Arena.resolve?, hroot, Option.filter_some, if_pos hdenotes.contains]
  have hleft := (hcollected.contains_iff root).mpr ⟨_, hword, root, hresolve, .here⟩
  exact hdenotes.of_extends hcollected.extends_arena (hcollected.sound.gapless.intact hleft)

/-- A collection between scopes leaves alone what the slots denote. -/
theorem Ready.collect (hready : session.Ready slots) (elapsed : UInt64) :
    ∃ report heap, session.heap.collect session.memory elapsed = .ok (report, heap) ∧
      Ready slots { session with heap := heap } ∧
      Keeps slots session { session with heap := heap } := by
  obtain ⟨report, heap, hcollect, hcollected⟩ := hready.sound.collect_alone elapsed
  refine ⟨report, heap, hcollect, ⟨hcollected.sound, ?_⟩, hcollected.keeps hready.registered⟩
  rw [hcollected.regions_eq]
  exact hready.registered

theorem Ready.pause (hready : session.Ready slots) (pause : Pause) :
    ∃ after, session.pause pause = .ok after ∧ after.Ready slots ∧ Keeps slots session after := by
  cases pause with
  | collect elapsed =>
      obtain ⟨report, heap, hcollect, hafter, hkeeps⟩ := hready.collect elapsed
      exact ⟨_, by simp only [Session.pause, hcollect, Except.map], hafter, hkeeps⟩
  | maybeCollect elapsed =>
      by_cases hdue : session.heap.collectionDue = true
      · obtain ⟨report, heap, hcollect, hafter, hkeeps⟩ := hready.collect elapsed
        refine ⟨_, ?_, hafter, hkeeps⟩
        simp only [Session.pause, Heap.maybeCollect, hdue, if_true, hcollect, Except.map]
      · refine ⟨session, ?_, hready, .refl slots session⟩
        simp only [Session.pause, Heap.maybeCollect, if_neg hdue, Except.map]

theorem Ready.foldlM_pause (hready : session.Ready slots) (pauses : List Pause) :
    ∃ after, pauses.foldlM Session.pause session = .ok after ∧ after.Ready slots ∧
      Keeps slots session after := by
  induction pauses generalizing session with
  | nil => exact ⟨session, rfl, hready, .refl slots session⟩
  | cons first rest ih =>
      obtain ⟨between, hfirst, hbetween, hkeeps⟩ := hready.pause first
      obtain ⟨after, hrest, hafter, hmore⟩ := ih hbetween
      refine ⟨after, ?_, hafter, hkeeps.trans hmore⟩
      rw [List.foldlM_cons, hfirst]
      exact hrest

end Session

end ExprHeap
