import ExprHeap.Mark.Scan
import ExprHeap.Proofs.Batches
import ExprHeap.Proofs.Marking

/-!
# A scan finds exactly what the regions reach

A scan reads the words of all regions and then marks everything below the roots
among them.  What it reads is the list `wordsIn memory regions`, whatever the
size of the chunks; a handle is *reachable* from words if it lies below a node
that one of them names.

## Strategy

While the regions are read, the handles found are exactly the nodes that the
words read so far name (`RootScan.Notes`); one word keeps this, hence a chunk,
hence a region.  From there `Marking.Closing.close` takes over.  `LiveSet.Exact`
collects what the sweep needs to know of the result.
-/

namespace ExprHeap

variable {arena : Arena} {issued : Nat}

/-! ### Words and what they reach -/

/-- The words in the slots of a region, in order. -/
def Region.words (memory : Memory) (region : Region) : List UInt64 :=
  (List.range region.length.toNat).map fun slot => memory.read (region.address slot)

/-- The words in the slots of all regions, in the order in which they are read. -/
def wordsIn (memory : Memory) (regions : List Region) : List UInt64 :=
  regions.flatMap (Region.words memory)

namespace Arena

/-- A handle lies below a node that one of the words names. -/
def Reachable (arena : Arena) (words : List UInt64) (handle : Handle) : Prop :=
  ∃ word ∈ words, ∃ root, arena.resolve? word = some root ∧ arena.Below root handle

theorem resolve?_zero (arena : Arena) : arena.resolve? 0 = none := rfl

theorem contains_of_resolve? {word : UInt64} {root : Handle}
    (hresolve : arena.resolve? word = some root) : arena.contains root = true :=
  (Option.filter_eq_some_iff.mp hresolve).2

/-- Without gaps, everything reachable is allocated. -/
theorem ChildrenAllocated.contains_of_reachable (hclosed : arena.ChildrenAllocated)
    {words : List UInt64} {handle : Handle} (hreachable : arena.Reachable words handle) :
    arena.contains handle = true := by
  obtain ⟨word, -, root, hroot, hbelow⟩ := hreachable
  exact hclosed.intact (contains_of_resolve? hroot) handle hbelow

end Arena

/-! ### Reading the regions -/

namespace RootScan

variable {scan : RootScan} {words : List UInt64}

/-- The nodes marked so far are those that the words read so far name. -/
structure Notes (arena : Arena) (words : List UInt64) (scan : RootScan) : Prop where
  valid : scan.marking.Valid arena
  found_iff : ∀ handle, handle ∈ scan.marking.found ↔
    ∃ word ∈ words, arena.resolve? word = some handle

theorem notes_empty (arena : Arena) : RootScan.empty.Notes arena [] where
  valid := Marking.valid_empty arena
  found_iff := by simp [RootScan.empty, Marking.empty]

/-- A word that names no node adds nothing to what is found. -/
theorem Notes.skip {after : RootScan} (hnotes : scan.Notes arena words) {word : UInt64}
    (hresolve : arena.resolve? word = none) (hmarking : after.marking = scan.marking) :
    after.Notes arena (words ++ [word]) where
  valid := hmarking ▸ hnotes.valid
  found_iff handle := by
    rw [hmarking, hnotes.found_iff]
    simp [or_and_right, exists_or, hresolve]

theorem Notes.note (hcoherent : arena.Coherent issued) (hnotes : scan.Notes arena words)
    (word : UInt64) :
    ∃ after, note arena scan word = .ok after ∧ after.Notes arena (words ++ [word]) := by
  by_cases hzero : word = 0
  · refine ⟨scan, by rw [RootScan.note, if_pos hzero], hnotes.skip ?_ rfl⟩
    rw [hzero, arena.resolve?_zero]
  cases hresolve : arena.resolve? word with
  | none =>
      refine ⟨{ scan with
        sightings := scan.sightings.push (.rejected word)
        rejected := scan.rejected + 1 }, ?_, hnotes.skip hresolve rfl⟩
      simp only [RootScan.note, if_neg hzero, hresolve]
  | some root =>
      obtain ⟨marking, hmark, hvalid, hlist⟩ :=
        hnotes.valid.mark hcoherent (Arena.contains_of_resolve? hresolve)
      have hfound : ∀ handle, handle ∈ marking.found ↔
          ∃ other ∈ words ++ [word], arena.resolve? other = some handle := by
        intro handle
        have hmid : handle ∈ marking.found ↔ handle ∈ scan.marking.found ∨ handle = root := by
          rw [← Array.mem_toList_iff, hlist, List.mem_append, Array.mem_toList_iff]
          split <;> simp_all
        rw [hmid, hnotes.found_iff]
        simp [or_and_right, exists_or, hresolve, eq_comm]
      -- whether the root is new decides only about the record of sightings
      by_cases hnew : root ∈ scan.marking.found
      · refine ⟨{ scan with marking := marking }, ?_, ⟨hvalid, hfound⟩⟩
        simp only [RootScan.note, if_neg hzero, hresolve, hmark, hnew, not_true, decide_false]
      · refine ⟨{ scan with
          marking := marking, sightings := scan.sightings.push (.root root) }, ?_,
          ⟨hvalid, hfound⟩⟩
        simp only [RootScan.note, if_neg hzero, hresolve, hmark, hnew, not_false_eq_true,
          decide_true]

theorem Notes.foldlM_note (hcoherent : arena.Coherent issued) (hnotes : scan.Notes arena words)
    (more : List UInt64) :
    ∃ after, more.foldlM (RootScan.note arena) scan = .ok after ∧
      after.Notes arena (words ++ more) := by
  induction more generalizing scan words with
  | nil => exact ⟨scan, rfl, by simpa using hnotes⟩
  | cons word rest ih =>
      obtain ⟨middle, hnote, hmiddle⟩ := hnotes.note hcoherent word
      obtain ⟨after, hfold, hafter⟩ := ih hmiddle
      refine ⟨after, ?_, by simpa using hafter⟩
      rw [List.foldlM_cons, hnote]
      exact hfold

/-- Reading the chunks of a region is reading their slots in order. -/
theorem Notes.readChunks (hcoherent : arena.Coherent issued) (memory : Memory) (region : Region)
    (hnotes : scan.Notes arena words) (chunks : List Span) :
    ∃ after, chunks.foldlM (readChunk arena memory region) scan = .ok after ∧
      after.Notes arena (words ++
        (chunks.flatMap Span.indices).map fun slot => memory.read (region.address slot)) := by
  induction chunks generalizing scan words with
  | nil => exact ⟨scan, rfl, by simpa using hnotes⟩
  | cons span rest ih =>
      obtain ⟨middle, hread, hmiddle⟩ := hnotes.foldlM_note hcoherent
        (span.indices.map fun slot => memory.read (region.address slot))
      obtain ⟨after, hfold, hafter⟩ := ih hmiddle
      refine ⟨after, ?_, by simpa using hafter⟩
      rw [List.foldlM_cons, readChunk, hread]
      exact hfold

theorem Notes.readRegion (hcoherent : arena.Coherent issued) (memory : Memory) (chunk : Nat)
    (region : Region) (hnotes : scan.Notes arena words) :
    ∃ after, readRegion arena memory chunk scan region = .ok after ∧
      after.Notes arena (words ++ region.words memory) := by
  have hcounted : ({ scan with
      regions := scan.regions + 1
      slots := scan.slots + region.length.toNat } : RootScan).Notes arena words :=
    ⟨hnotes.valid, hnotes.found_iff⟩
  obtain ⟨after, hread, hafter⟩ :=
    hcounted.readChunks hcoherent memory region (spans chunk 0 region.length.toNat)
  rw [flatMap_indices_spans, Nat.sub_zero, ← List.range_eq_range'] at hafter
  exact ⟨after, hread, hafter⟩

/-- **Reading the regions succeeds, and finds the nodes that their words name.** -/
theorem notes_ofRegions (hcoherent : arena.Coherent issued) (memory : Memory) (chunk : Nat)
    (regions : List Region) :
    ∃ scan, ofRegions arena memory chunk regions = .ok scan ∧
      scan.Notes arena (wordsIn memory regions) := by
  suffices hfold : ∀ {scan words}, scan.Notes arena words →
      ∃ after, regions.foldlM (RootScan.readRegion arena memory chunk) scan = .ok after ∧
        after.Notes arena (words ++ wordsIn memory regions) from hfold (notes_empty arena)
  induction regions with
  | nil => exact fun {scan words} hnotes => ⟨scan, rfl, by simpa [wordsIn] using hnotes⟩
  | cons region rest ih =>
      intro scan words hnotes
      obtain ⟨middle, hread, hmiddle⟩ := hnotes.readRegion hcoherent memory chunk region
      obtain ⟨after, hfold, hafter⟩ := ih hmiddle
      refine ⟨after, ?_, by simpa [wordsIn] using hafter⟩
      rw [List.foldlM_cons, hread]
      exact hfold

end RootScan

/-! ### The live set of a scan -/

/-- The live set holds exactly the handles reachable from the words. -/
structure LiveSet.Exact (arena : Arena) (words : List UInt64) (live : LiveSet) : Prop where
  contains_iff : ∀ handle, handle.generation ≠ 0 →
    (live.contains handle = true ↔ arena.Reachable words handle)
  reachable_of_mem : ∀ handle ∈ live.toList, arena.Reachable words handle

/-- The list of the members holds nothing that has not been found. -/
theorem Marking.Valid.mem_found_of_mem_toList {marking : Marking} (hvalid : marking.Valid arena)
    {handle : Handle} (hmem : handle ∈ marking.live.toList) : handle ∈ marking.found := by
  obtain ⟨⟨generation, index⟩, hzip, hhandle⟩ := List.mem_filterMap.mp hmem
  dsimp only at hhandle
  split at hhandle
  · cases hhandle
  rename_i hgeneration
  have hat : marking.live.generationAt index = generation := by
    have hlookup := List.mem_zipIdx_iff_getElem?.mp hzip
    rw [Array.getElem?_toList] at hlookup
    simp only [LiveSet.generationAt, hlookup, Option.getD_some]
  obtain ⟨found, hfound, rfl, rfl⟩ := (hvalid.generationAt_iff _ _ hgeneration).mp hat
  rw [UInt32.ofNat_toNat, Option.some.injEq] at hhandle
  exact hhandle ▸ hfound

theorem bind_eq_of_ok {α β ε : Type} {answer : Except ε α} {value : α}
    (hanswer : answer = .ok value) (next : α → Except ε β) : answer.bind next = next value := by
  rw [hanswer]
  rfl

theorem exists_of_bind_eq_ok {α β ε : Type} {answer : Except ε α} {next : α → Except ε β}
    {result : β} (hbind : answer.bind next = .ok result) :
    ∃ value, answer = .ok value ∧ next value = .ok result := by
  cases answer with
  | error error => cases hbind
  | ok value => exact ⟨value, rfl, hbind⟩

/-- The last step of a scan, as an equation between functions: opened at its arguments it would
be evaluated, and with it the marker, wherever its type is checked. -/
theorem RootScan.finish_eq : RootScan.finish = fun arena chunk scan =>
    match scan.marking.close arena chunk 0 with
    | .ok marking => .ok (marking.live, {
        regions := scan.regions
        slots := scan.slots
        roots := scan.marking.live.size
        rejected := scan.rejected
        marked := marking.live.size })
    | .error fault => .error fault := rfl

theorem RootScan.finish_of_close {scan : RootScan} {chunk : Nat} {result : Marking}
    (hclose : scan.marking.close arena chunk 0 = .ok result) :
    scan.finish arena chunk = .ok (result.live, {
      regions := scan.regions
      slots := scan.slots
      roots := scan.marking.live.size
      rejected := scan.rejected
      marked := result.live.size }) := by
  rw [RootScan.finish_eq]
  dsimp only
  rw [hclose]

/-- From intact roots, marking finds what the words reach. -/
theorem RootScan.Notes.close (hcoherent : arena.Coherent issued) {scan : RootScan}
    {words : List UInt64} (hnotes : scan.Notes arena words)
    (hintact : ∀ word ∈ words, ∀ root, arena.resolve? word = some root → arena.Intact root)
    (chunk : Nat) :
    ∃ result, scan.marking.close arena chunk 0 = .ok result ∧ result.Valid arena ∧
      ∀ handle, handle ∈ result.found ↔ arena.Reachable words handle := by
  let roots : Handle → Prop := fun root => ∃ word ∈ words, arena.resolve? word = some root
  -- nothing has been passed yet, and the roots are all that is found
  have hclosing : scan.marking.Closing arena roots 0 :=
    { valid := hnotes.valid
      root_found := fun root hroot => (hnotes.found_iff root).mpr hroot
      found_below := fun handle hfound => ⟨handle, (hnotes.found_iff handle).mp hfound, .here⟩
      passed := fun _ _ _ hposition => absurd hposition (Nat.not_lt_zero _) }
  obtain ⟨result, hclose, hvalid, hfound⟩ := hclosing.close hcoherent
    (fun root ⟨word, hword, hresolve⟩ => hintact word hword root hresolve) chunk
  refine ⟨result, hclose, hvalid, fun handle => (hfound handle).trans ?_⟩
  constructor
  · rintro ⟨root, ⟨word, hword, hresolve⟩, hbelow⟩
    exact ⟨word, hword, root, hresolve, hbelow⟩
  · rintro ⟨word, hword, root, hresolve, hbelow⟩
    exact ⟨root, ⟨word, hword, hresolve⟩, hbelow⟩

/-- **From intact roots, a scan succeeds with exactly what the words reach.** -/
theorem RootScan.Notes.finish (hcoherent : arena.Coherent issued) {scan : RootScan}
    {words : List UInt64} (hnotes : scan.Notes arena words)
    (hintact : ∀ word ∈ words, ∀ root, arena.resolve? word = some root → arena.Intact root)
    (chunk : Nat) :
    ∃ live stats, scan.finish arena chunk = .ok (live, stats) ∧ live.Exact arena words := by
  obtain ⟨result, hclose, hvalid, hreachable⟩ := hnotes.close hcoherent hintact chunk
  refine ⟨result.live, _, RootScan.finish_of_close hclose, ?_, ?_⟩
  · intro handle hgeneration
    rw [hvalid.contains_iff hgeneration, hreachable]
  · intro handle hmem
    exact (hreachable handle).mp (hvalid.mem_found_of_mem_toList hmem)

theorem scanRegions_eq : scanRegions = fun arena memory chunk regions =>
    (RootScan.ofRegions arena memory chunk regions).bind fun scan => scan.finish arena chunk := rfl

theorem scanRegions_of_read {memory : Memory} {chunk : Nat} {regions : List Region}
    {scan : RootScan} {found : LiveSet × ScanStats}
    (hread : RootScan.ofRegions arena memory chunk regions = .ok scan)
    (hfinish : scan.finish arena chunk = .ok found) :
    scanRegions arena memory chunk regions = .ok found := by
  rw [scanRegions_eq]
  exact (bind_eq_of_ok hread _).trans hfinish

/-- Where there are no regions, nothing is found. -/
theorem scanRegions_nil (arena : Arena) (memory : Memory) (chunk : Nat) :
    scanRegions arena memory chunk [] = .ok (.empty, ⟨0, 0, 0, 0, 0⟩) := by
  have hclose : RootScan.empty.marking.close arena chunk 0 = .ok RootScan.empty.marking :=
    Marking.close_of_passed (Nat.le_refl 0)
  exact scanRegions_of_read rfl (RootScan.finish_of_close hclose)

theorem exact_scanRegions (hcoherent : arena.Coherent issued) (memory : Memory) (chunk : Nat)
    (regions : List Region) (hintact : ∀ word ∈ wordsIn memory regions, ∀ root,
      arena.resolve? word = some root → arena.Intact root) :
    ∃ live stats, scanRegions arena memory chunk regions = .ok (live, stats) ∧
      live.Exact arena (wordsIn memory regions) := by
  obtain ⟨scan, hread, hnotes⟩ := RootScan.notes_ofRegions hcoherent memory chunk regions
  obtain ⟨live, stats, hfinish, hexact⟩ := hnotes.finish hcoherent hintact chunk
  exact ⟨live, stats, scanRegions_of_read hread hfinish, hexact⟩

end ExprHeap
