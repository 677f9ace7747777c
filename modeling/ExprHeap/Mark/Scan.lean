import ExprHeap.Batch
import ExprHeap.Mark.Marking
import ExprHeap.Region.Registry

/-!
# The scan

The scan computes the live set of a collection: every node that can be reached from a word in
some slot of a region.  Words are not trusted.  A word is a root only if it names an allocated
node; any other word that is not null is rejected and counted.

The slots of each region are read in chunks, first all regions and then, from the roots found,
everything below them.
-/

namespace ExprHeap

/-- What the scan makes of a word that is not null. -/
inductive Sighting where
  /-- A handle, seen for the first time. -/
  | root (handle : Handle)
  | rejected (word : UInt64)
  deriving DecidableEq

/-- Counts of one scan. -/
structure ScanStats where
  regions : Nat
  slots : Nat
  /-- Distinct nodes that some slot names. -/
  roots : Nat
  /-- Slots with a word that is not null and names no node. -/
  rejected : Nat
  /-- All nodes marked, roots included. -/
  marked : Nat
  deriving DecidableEq

/-- The regions read so far. -/
structure RootScan where
  marking : Marking
  sightings : Array Sighting
  regions : Nat
  slots : Nat
  rejected : Nat

namespace RootScan

/-- Nothing read. -/
def empty : RootScan :=
  { marking := .empty, sightings := #[], regions := 0, slots := 0, rejected := 0 }

/-- Takes note of the word in a slot. -/
def note (arena : Arena) (scan : RootScan) (word : UInt64) : Except Fault RootScan :=
  if word = 0 then .ok scan
  else match arena.resolve? word with
    | some handle =>
      match scan.marking.mark handle with
      | .ok (true, marking) => .ok { scan with
          marking := marking
          sightings := scan.sightings.push (.root handle) }
      | .ok (false, marking) => .ok { scan with marking := marking }
      | .error fault => .error fault
    | none => .ok { scan with
        sightings := scan.sightings.push (.rejected word)
        rejected := scan.rejected + 1 }

/-- Reads a chunk of a region, then takes note of the words. -/
def readChunk (arena : Arena) (memory : Memory) (region : Region) (scan : RootScan)
    (span : Span) : Except Fault RootScan :=
  (span.indices.map fun slot => memory.read (region.address slot)).foldlM (note arena) scan

/-- Reads a region. -/
def readRegion (arena : Arena) (memory : Memory) (chunk : Nat) (scan : RootScan)
    (region : Region) : Except Fault RootScan :=
  (spans chunk 0 region.length.toNat).foldlM (readChunk arena memory region)
    { scan with regions := scan.regions + 1, slots := scan.slots + region.length.toNat }

/-- Reads all regions. -/
def ofRegions (arena : Arena) (memory : Memory) (chunk : Nat) (regions : List Region) :
    Except Fault RootScan :=
  regions.foldlM (readRegion arena memory chunk) empty

/-- Marks everything below the roots. -/
def finish (arena : Arena) (chunk : Nat) (scan : RootScan) :
    Except Fault (LiveSet × ScanStats) :=
  match scan.marking.close arena chunk 0 with
  | .ok marking => .ok (marking.live, {
      regions := scan.regions
      slots := scan.slots
      roots := scan.marking.live.size
      rejected := scan.rejected
      marked := marking.live.size })
  | .error fault => .error fault

end RootScan

/-- The live set of an arena for the words that memory holds in the regions. -/
def scanRegions (arena : Arena) (memory : Memory) (chunk : Nat) (regions : List Region) :
    Except Fault (LiveSet × ScanStats) := do
  (← RootScan.ofRegions arena memory chunk regions).finish arena chunk

end ExprHeap
