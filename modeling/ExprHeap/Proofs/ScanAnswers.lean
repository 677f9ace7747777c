import ExprHeap.Proofs.Census
import ExprHeap.Proofs.InterleavedSweep
import ExprHeap.Proofs.LiveSets
import ExprHeap.Proofs.Unbatched
import ExprHeap.Proofs.Words

/-!
# What a scan answers with

A scan answers with a live set and five counts.  Where no child of a node is missing, the live set
holds what the words in the slots reach, and each count is the size of something that can be told
without the scan (`ScanStats.Exact`): the regions and their slots, the nodes that the words name,
the readings that name none, the nodes reached.

## Strategy

The regions, the slots and the rejected words are counted while the words are read, one by one:
`RootScan.Reads` says what reading some words adds to each count.  The other two counts are sizes of
the live set, once before and once after the marking, and there every handle found is counted once
(`Marking.Valid.perm_toList`).

Since the live set is trimmed at all times, its table is told by its members.  So whatever else
another scan reads, and in whatever order, the same words give the same live set.
-/

namespace ExprHeap

variable {arena : Arena} {issued capacity : Nat}

/-! ### Words that name nodes -/

theorem Handle.word_of_ofWord? {word : UInt64} {handle : Handle}
    (hword : Handle.ofWord? word = some handle) : handle.word = word := by
  unfold ofWord? at hword
  split at hword
  · cases hword
  obtain rfl := Option.some.inj hword
  have hlt : word.toNat < 2 ^ 64 := word.toNat_lt
  have hbound : UInt32.size = 2 ^ 32 := rfl
  apply UInt64.toNat_inj.mp
  rw [toNat_word, UInt64.toNat_toUInt32, UInt64.toNat_toUInt32, UInt64.toNat_shiftRight, hbound]
  simp [Nat.shiftRight_eq_div_pow]
  omega

namespace Arena

/-- A word names a node if it is the word of its handle. -/
theorem Coherent.resolve?_eq_some_iff (hcoherent : arena.Coherent issued) {word : UInt64}
    {handle : Handle} : arena.resolve? word = some handle ↔
      arena.contains handle = true ∧ handle.word = word := by
  constructor
  · intro hresolve
    obtain ⟨hword, hcontains⟩ := Option.filter_eq_some_iff.mp hresolve
    exact ⟨hcontains, Handle.word_of_ofWord? hword⟩
  · rintro ⟨hcontains, rfl⟩
    have hgeneration := Marking.generation_ne_zero_of_contains hcoherent hcontains
    exact Option.filter_eq_some_iff.mpr ⟨Handle.ofWord?_word hgeneration, hcontains⟩

/-- A word without a generation names nothing. -/
theorem Coherent.resolve?_of_lt (hcoherent : arena.Coherent issued) {word : UInt64}
    (hword : word.toNat < UInt32.size) : arena.resolve? word = none := by
  by_contra hsome
  obtain ⟨handle, hresolve⟩ := Option.ne_none_iff_exists'.mp hsome
  obtain ⟨hcontains, rfl⟩ := hcoherent.resolve?_eq_some_iff.mp hresolve
  have hgeneration := Marking.generation_ne_zero_of_contains hcoherent hcontains
  have hpos : handle.generation.toNat ≠ 0 := fun hzero =>
    hgeneration (UInt32.toNat_inj.mp hzero)
  rw [handle.toNat_word] at hword
  have := Nat.le_mul_of_pos_left UInt32.size (Nat.pos_of_ne_zero hpos)
  omega

/-- The nodes that the words name. -/
def rootsAmong (arena : Arena) (words : List UInt64) : Set Handle :=
  {root | ∃ word ∈ words, arena.resolve? word = some root}

/-- The nodes that the words reach. -/
def closureOf (arena : Arena) (words : List UInt64) : Set Handle :=
  {handle | arena.Reachable words handle}

/-- Whether a word is not null and yet names no node. -/
def rejects (arena : Arena) (word : UInt64) : Bool :=
  word != 0 && (arena.resolve? word).isNone

/-- Only the set of the words matters for what they reach. -/
theorem reachable_congr {words other : List UInt64} (hwords : ∀ word, word ∈ words ↔ word ∈ other)
    (handle : Handle) : arena.Reachable words handle ↔ arena.Reachable other handle := by
  simp only [Reachable, hwords]

theorem rootsAmong_congr {words other : List UInt64}
    (hwords : ∀ word, word ∈ words ↔ word ∈ other) :
    arena.rootsAmong words = arena.rootsAmong other := by
  simp only [rootsAmong, hwords]

end Arena

/-! ### What reading adds to the counts -/

namespace RootScan

variable {scan after : RootScan}

/-- What reading some words leads to. -/
structure Reads (arena : Arena) (words : List UInt64) (scan after : RootScan) : Prop where
  regions_eq : after.regions = scan.regions
  slots_eq : after.slots = scan.slots
  rejected_eq : after.rejected = scan.rejected + words.countP arena.rejects
  trimmed : scan.marking.live.Trimmed → after.marking.live.Trimmed

theorem reads_nil (arena : Arena) (scan : RootScan) : scan.Reads arena [] scan :=
  ⟨rfl, rfl, rfl, id⟩

theorem Reads.append {middle : RootScan} {words more : List UInt64}
    (hfirst : Reads arena words scan middle) (hsecond : Reads arena more middle after) :
    Reads arena (words ++ more) scan after where
  regions_eq := hsecond.regions_eq.trans hfirst.regions_eq
  slots_eq := hsecond.slots_eq.trans hfirst.slots_eq
  rejected_eq := by rw [hsecond.rejected_eq, hfirst.rejected_eq, List.countP_append, Nat.add_assoc]
  trimmed htrimmed := hsecond.trimmed (hfirst.trimmed htrimmed)

theorem reads_note (hcoherent : arena.Coherent issued) {word : UInt64}
    (hnote : note arena scan word = .ok after) : Reads arena [word] scan after := by
  unfold note at hnote
  -- three kinds of words: null, one that names no node, and a root
  by_cases hzero : word = 0
  · simp only [hzero, if_true, Except.ok.injEq] at hnote
    subst hnote
    refine ⟨rfl, rfl, ?_, id⟩
    simp [Arena.rejects, hzero]
  rw [if_neg hzero] at hnote
  cases hresolve : arena.resolve? word with
  | none =>
      simp only [hresolve, Except.ok.injEq] at hnote
      subst hnote
      refine ⟨rfl, rfl, ?_, id⟩
      simp [Arena.rejects, hzero, hresolve]
  | some root =>
      have hgeneration := Marking.generation_ne_zero_of_contains hcoherent
        (Arena.contains_of_resolve? hresolve)
      have haccepted : [word].countP arena.rejects = 0 := by simp [Arena.rejects, hresolve]
      cases hmark : scan.marking.mark root with
      | error fault => simp [hresolve, hmark] at hnote
      | ok answer =>
          obtain ⟨isNew, marking⟩ := answer
          cases isNew <;> simp only [hresolve, hmark, Except.ok.injEq] at hnote <;> subst hnote <;>
            exact ⟨rfl, rfl, by rw [haccepted]; rfl, Marking.mark_trimmed hgeneration hmark⟩

theorem reads_foldlM_note (hcoherent : arena.Coherent issued) {words : List UInt64}
    (hfold : words.foldlM (note arena) scan = .ok after) : Reads arena words scan after := by
  induction words generalizing scan with
  | nil =>
      cases hfold
      exact reads_nil arena _
  | cons word rest ih =>
      rw [List.foldlM_cons] at hfold
      obtain ⟨middle, hnote, hrest⟩ := exists_of_bind_eq_ok hfold
      exact (reads_note hcoherent hnote).append (ih hrest)

/-- The counts after all regions have been read. -/
structure Counts (arena : Arena) (memory : Memory) (regions : List Region) (scan : RootScan) :
    Prop where
  regions_eq : scan.regions = regions.length
  slots_eq : scan.slots = (regions.map fun region => region.length.toNat).sum
  rejected_eq : scan.rejected = (wordsIn memory regions).countP arena.rejects
  trimmed : scan.marking.live.Trimmed

theorem counts_empty (arena : Arena) (memory : Memory) : Counts arena memory [] .empty :=
  ⟨rfl, rfl, rfl, LiveSet.trimmed_empty⟩

theorem Counts.readRegion (hcoherent : arena.Coherent issued) {memory : Memory} {chunk : Nat}
    {before : List Region} {region : Region} (hcounts : Counts arena memory before scan)
    (hread : readRegion arena memory chunk scan region = .ok after) :
    Counts arena memory (before ++ [region]) after := by
  rw [readRegion_eq] at hread
  have hreads := reads_foldlM_note hcoherent hread
  constructor
  · rw [hreads.regions_eq, hcounts.regions_eq, List.length_append, List.length_singleton]
  · rw [hreads.slots_eq, hcounts.slots_eq, List.map_append, List.sum_append, List.map_singleton,
      List.sum_singleton]
  · rw [hreads.rejected_eq, hcounts.rejected_eq]
    simp only [wordsIn, List.flatMap_append, List.countP_append, List.flatMap_singleton]
  · exact hreads.trimmed hcounts.trimmed

theorem counts_ofRegions (hcoherent : arena.Coherent issued) {memory : Memory} {chunk : Nat}
    {regions : List Region} (hread : ofRegions arena memory chunk regions = .ok scan) :
    Counts arena memory regions scan := by
  -- the induction is on the regions to come, so it is about any regions before them
  suffices hfold : ∀ {before start}, Counts arena memory before start →
      regions.foldlM (RootScan.readRegion arena memory chunk) start = .ok scan →
      Counts arena memory (before ++ regions) scan from hfold (counts_empty arena memory) hread
  clear hread
  induction regions with
  | nil =>
      intro before start hcounts hfold
      cases hfold
      rwa [List.append_nil]
  | cons region rest ih =>
      intro before start hcounts hfold
      rw [List.foldlM_cons] at hfold
      obtain ⟨middle, hread, hrest⟩ := exists_of_bind_eq_ok hfold
      rw [List.append_cons]
      exact ih (hcounts.readRegion hcoherent hread) hrest

/-- The roots are counted once each. -/
theorem Notes.ncard_rootsAmong {words : List UInt64} (hnotes : scan.Notes arena words) :
    (arena.rootsAmong words).ncard = scan.marking.live.size := by
  rw [ncard_of_nodup hnotes.valid.nodup, Array.length_toList, hnotes.valid.size_eq]
  intro root
  rw [Array.mem_toList_iff, hnotes.found_iff]
  rfl

end RootScan

/-! ### The answer -/

/-- The counts of a scan are the sizes of what it has to count. -/
structure ScanStats.Exact (arena : Arena) (memory : Memory) (regions : List Region)
    (stats : ScanStats) : Prop where
  regions_eq : stats.regions = regions.length
  slots_eq : stats.slots = (regions.map fun region => region.length.toNat).sum
  roots_eq : stats.roots = (arena.rootsAmong (wordsIn memory regions)).ncard
  rejected_eq : stats.rejected = (wordsIn memory regions).countP arena.rejects
  marked_eq : stats.marked = (arena.closureOf (wordsIn memory regions)).ncard

/-- A live set holds what the words reach, and holds it once. -/
structure LiveSet.Closes (arena : Arena) (words : List UInt64) (live : LiveSet) : Prop where
  mem_toList_iff : ∀ handle, handle ∈ live.toList ↔ arena.Reachable words handle
  /-- Zero is no generation, so it is not asked for. -/
  contains_iff : ∀ handle, handle.generation ≠ 0 →
    (live.contains handle = true ↔ arena.Reachable words handle)
  nodup_toList : live.toList.Nodup
  length_toList : live.toList.length = live.size

theorem LiveSet.Closes.ncard_closureOf {words : List UInt64} {live : LiveSet}
    (hcloses : live.Closes arena words) : (arena.closureOf words).ncard = live.size :=
  (ncard_of_nodup hcloses.nodup_toList hcloses.mem_toList_iff).trans hcloses.length_toList

/-- Two trimmed live sets that hold what the same words reach are the same. -/
theorem LiveSet.Closes.unique {words more : List UInt64} {live other : LiveSet}
    (hlive : live.Closes arena words) (hother : other.Closes arena more)
    (htrimmed : live.Trimmed) (htrimmedOther : other.Trimmed)
    (hwords : ∀ word, word ∈ words ↔ word ∈ more) : live = other := by
  have hmem : ∀ handle, handle ∈ live.toList ↔ handle ∈ other.toList := fun handle => by
    rw [hlive.mem_toList_iff, hother.mem_toList_iff, Arena.reachable_congr hwords]
  have hperm : live.toList.Perm other.toList :=
    (List.perm_ext_iff_of_nodup hlive.nodup_toList hother.nodup_toList).mpr fun {handle} =>
      hmem handle
  refine htrimmed.eq_of_mem_iff htrimmedOther hmem ?_
  rw [← hlive.length_toList, ← hother.length_toList, hperm.length_eq]

/-- A scan of an arena without gaps succeeds, with what the words reach and with exact counts. -/
theorem scanRegions_answers (hcoherent : arena.Coherent issued) (hclosed : arena.ChildrenAllocated)
    (memory : Memory) (chunk : Nat) (regions : List Region) :
    ∃ live stats, scanRegions arena memory chunk regions = .ok (live, stats) ∧ live.Trimmed ∧
      live.Closes arena (wordsIn memory regions) ∧ stats.Exact arena memory regions := by
  obtain ⟨scan, hread, hnotes⟩ := RootScan.notes_ofRegions hcoherent memory chunk regions
  have hcounts := RootScan.counts_ofRegions hcoherent hread
  obtain ⟨result, hclose, hvalid, hreachable⟩ := hnotes.close hcoherent
    (fun _ _ _ hresolve => hclosed.intact (Arena.contains_of_resolve? hresolve)) chunk
  have htrimmed := Marking.close_trimmed hcoherent hclosed hclose hcounts.trimmed
  -- the list of the live set has the order of the slots, so it is compared with the found ones
  have hperm := hvalid.perm_toList hcoherent htrimmed
  have hcloses : result.live.Closes arena (wordsIn memory regions) :=
    { mem_toList_iff := fun handle => by
        rw [hperm.mem_iff, Array.mem_toList_iff, hreachable]
      contains_iff := fun handle hgeneration => by
        rw [hvalid.contains_iff hgeneration, hreachable]
      nodup_toList := htrimmed.nodup_toList
      length_toList := by rw [hperm.length_eq, Array.length_toList, hvalid.size_eq] }
  refine ⟨result.live, _, scanRegions_of_read hread (RootScan.finish_of_close hclose), htrimmed,
    hcloses, ?_⟩
  exact
    { regions_eq := hcounts.regions_eq
      slots_eq := hcounts.slots_eq
      roots_eq := hnotes.ncard_rootsAmong.symm
      rejected_eq := hcounts.rejected_eq
      marked_eq := hcloses.ncard_closureOf.symm }

namespace Store

variable {store : Store}

/-- **A scan computes what the words in the slots reach**, in every store that calls can reach and
in which no child of a node is missing: whatever the regions, whatever stands in their slots and
however they are cut into chunks.  A word stands for the node whose handle it is the word of, if
there is one; so none of those without a generation does.  Of what has been read, the live set and
the counts of it depend on nothing but which words there were. -/
theorem scan_closes_words (hreached : store.Reached capacity)
    (hclosed : store.arena.ChildrenAllocated) :
    (∀ word handle, store.arena.resolve? word = some handle ↔
        store.arena.contains handle = true ∧ handle.word = word) ∧
      (∀ word : UInt64, word.toNat < UInt32.size → store.arena.resolve? word = none) ∧
      ∀ memory chunk regions, ∃ live stats,
        scanRegions store.arena memory chunk regions = .ok (live, stats) ∧
          live.Closes store.arena (wordsIn memory regions) ∧
          stats.Exact store.arena memory regions ∧
          ∀ otherMemory otherChunk otherRegions,
            (∀ word, word ∈ wordsIn memory regions ↔ word ∈ wordsIn otherMemory otherRegions) →
            ∃ otherStats, scanRegions store.arena otherMemory otherChunk otherRegions =
                .ok (live, otherStats) ∧
              otherStats.roots = stats.roots ∧ otherStats.marked = stats.marked := by
  obtain ⟨_, hcoherent⟩ := hreached.coherent
  refine ⟨fun _ _ => hcoherent.resolve?_eq_some_iff, fun _ => hcoherent.resolve?_of_lt, ?_⟩
  intro memory chunk regions
  obtain ⟨live, stats, hscan, htrimmed, hcloses, hexact⟩ :=
    scanRegions_answers hcoherent hclosed memory chunk regions
  refine ⟨live, stats, hscan, hcloses, hexact, ?_⟩
  intro otherMemory otherChunk otherRegions hwords
  obtain ⟨other, otherStats, hother, htrimmedOther, hclosesOther, hexactOther⟩ :=
    scanRegions_answers hcoherent hclosed otherMemory otherChunk otherRegions
  -- both live sets close the same words, and a trimmed set is told by its members
  obtain rfl := hcloses.unique hclosesOther htrimmed htrimmedOther hwords
  refine ⟨otherStats, hother, ?_, ?_⟩
  · rw [hexactOther.roots_eq, hexact.roots_eq, Arena.rootsAmong_congr hwords]
  · rw [hexactOther.marked_eq, hexact.marked_eq, hcloses.ncard_closureOf,
      hclosesOther.ncard_closureOf]

/-- Three slots with the word of the negation, a word without a generation and one that is stale;
the second of them is a region of its own as well. -/
def overlapping : Memory × List Region :=
  (((Memory.zeroed.write 8 (Handle.word ⟨1, 1⟩)).write 16 5).write 24 (Handle.word ⟨1, 2⟩),
    [⟨8, 3, .other⟩, ⟨16, 1, .other⟩])

/-- The slot that is read twice is rejected twice; from the one root the byte is reached. -/
theorem scan_closes_overlapping :
    withNegation.Reached 2 ∧ withNegation.arena.ChildrenAllocated ∧
      ∃ live stats, scanRegions withNegation.arena overlapping.1 0 overlapping.2 =
          .ok (live, stats) ∧
        (∀ handle, handle ∈ live.toList ↔ handle = ⟨1, 1⟩ ∨ handle = ⟨0, 1⟩) ∧
        stats = ⟨2, 4, 1, 3, 2⟩ := by
  obtain ⟨-, -, hscans⟩ := scan_closes_words reached_withNegation childrenAllocated_withNegation
  obtain ⟨live, stats, hscan, hcloses, hexact, -⟩ := hscans overlapping.1 0 overlapping.2
  have hwords : wordsIn overlapping.1 overlapping.2 =
      [Handle.word ⟨1, 1⟩, 5, Handle.word ⟨1, 2⟩, 5] := by
    dsimp only [overlapping]
    cbv
  have hroot : withNegation.arena.resolve? (Handle.word ⟨1, 1⟩) = some ⟨1, 1⟩ := by cbv
  have hsmall : withNegation.arena.resolve? 5 = none := by cbv
  have hstale : withNegation.arena.resolve? (Handle.word ⟨1, 2⟩) = none := by cbv
  have hnegation : withNegation.arena.node? ⟨1, 1⟩ = some ⟨.unary .neg, [⟨0, 1⟩], 8⟩ := by cbv
  have hbyte : withNegation.arena.node? ⟨0, 1⟩ = some ⟨.input 0, [], 8⟩ := by cbv
  -- of the four words only the first names a node
  have hreachable : ∀ handle, withNegation.arena.Reachable (wordsIn overlapping.1 overlapping.2)
      handle ↔ handle = ⟨1, 1⟩ ∨ handle = ⟨0, 1⟩ := by
    simp [Arena.Reachable, hwords, hroot, hsmall, hstale, Arena.below_iff_of_node? hnegation,
      Arena.below_iff_of_node? hbyte]
  have hroots : withNegation.arena.rootsAmong (wordsIn overlapping.1 overlapping.2) =
      {⟨1, 1⟩} := by
    ext handle
    simp [Arena.rootsAmong, hwords, hroot, hsmall, hstale, eq_comm]
  have hclosure : withNegation.arena.closureOf (wordsIn overlapping.1 overlapping.2) =
      {⟨1, 1⟩, ⟨0, 1⟩} := Set.ext hreachable
  refine ⟨reached_withNegation, childrenAllocated_withNegation, live, stats, hscan,
    fun handle => (hcloses.mem_toList_iff handle).trans (hreachable handle), ?_⟩
  have hrejected : (wordsIn overlapping.1 overlapping.2).countP withNegation.arena.rejects = 3 := by
    have hroot' : withNegation.arena.rejects (Handle.word ⟨1, 1⟩) = false := by
      simp [Arena.rejects, hroot]
    have hsmall' : withNegation.arena.rejects 5 = true := by
      simp [Arena.rejects, hsmall]
    have hstale' : withNegation.arena.rejects (Handle.word ⟨1, 2⟩) = true := by
      rw [Arena.rejects, hstale]
      decide
    simp [hwords, hroot', hsmall', hstale']
  obtain ⟨hregions, hslots, hrootCount, hrejectedCount, hmarked⟩ := hexact
  rw [hroots, Set.ncard_singleton] at hrootCount
  rw [hclosure, Set.ncard_pair (by decide)] at hmarked
  cases stats
  simp_all [overlapping]

end Store

end ExprHeap
