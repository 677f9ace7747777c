import ExprHeap.Error
import ExprHeap.Memory

/-!
# Regions and their registry

A region is a row of slots in host memory, each a null word or a word that may be a handle.
The regions that are registered are the roots of every collection.

Requests to register and to unregister wait in a queue, so that nobody who makes one waits for a
collection.  Whoever asks for the regions first settles the queue: each request is applied to
the table in the order in which it was made.  The table is ordered by first registration and
holds a range at most once.
-/

namespace ExprHeap

/-- What a region holds, for the record only. -/
inductive RegionKind where
  | stackShadow
  | heapShadow
  | parameterSlots
  | returnSlot
  | other
  deriving DecidableEq

namespace RegionKind

/-- The name of a kind of region. -/
def text : RegionKind → String
  | .stackShadow => "StackShadow"
  | .heapShadow => "HeapShadow"
  | .parameterSlots => "ParameterSlots"
  | .returnSlot => "ReturnSlot"
  | .other => "Other"

/-- The kind with this name. -/
def named? (name : String) : Option RegionKind :=
  [.stackShadow, .heapShadow, .parameterSlots, .returnSlot, .other].find? (·.text == name)

end RegionKind

/-- A row of slots: the address of the first and how many there are. -/
structure Region where
  base : UInt64
  length : UInt64
  kind : RegionKind
  deriving DecidableEq

namespace Region

/-- Whether a row of slots starts at an aligned address other than null and ends within the
address space. -/
def isAddressable (base length : UInt64) : Bool :=
  base != 0 && base % 8 == 0 && base.toNat + 8 * length.toNat < UInt64.size

/-- A region, if its slots are addressable; a region without slots may be anywhere. -/
def make (base length : UInt64) (kind : RegionKind) : Except HeapError Region :=
  if length = 0 || isAddressable base length then .ok ⟨base, length, kind⟩
  else .error (.misalignedRegion base)

/-- Whether a region has no slots. -/
def isEmpty (region : Region) : Bool := region.length == 0

/-- Whether a region is exactly this row of slots. -/
def covers (region : Region) (base length : UInt64) : Bool :=
  region.base == base && region.length == length

/-- The address of a slot of the region. -/
def address (region : Region) (slot : Nat) : UInt64 :=
  Memory.slotAddress region.base slot

end Region

/-- What can be asked of the registry. -/
inductive RegionRequest where
  | register (region : Region)
  | unregister (base length : UInt64)
  deriving DecidableEq

/-- The regions in order, with the newly registered ones of the requests applied so far. -/
structure RegionTable where
  regions : List Region
  registered : List Region

/-- Applies one request.  A range that is in the table already only takes the new kind. -/
def RegionTable.apply (table : RegionTable) : RegionRequest → RegionTable
  | .register region =>
    if table.regions.any (·.covers region.base region.length) then
      { table with regions := table.regions.map fun known =>
          if known.covers region.base region.length then { known with kind := region.kind }
          else known }
    else { regions := table.regions ++ [region], registered := table.registered ++ [region] }
  | .unregister base length =>
    { table with regions := table.regions.filter (!·.covers base length) }

/-- The settled regions and the requests still waiting, oldest first. -/
structure Registry where
  queue : List RegionRequest
  regions : List Region

namespace Registry

/-- A registry without regions. -/
def empty : Registry := { queue := [], regions := [] }

/-- Asks for a region to be registered.  A region without slots is accepted and left out. -/
def register (registry : Registry) (base length : UInt64) (kind : RegionKind) :
    Except HeapError Registry :=
  match Region.make base length kind with
  | .error error => .error error
  | .ok region =>
    if region.isEmpty then .ok registry
    else .ok { registry with queue := registry.queue ++ [.register region] }

/-- Asks for a row of slots to be no region any more. -/
def unregister (registry : Registry) (base length : UInt64) : Registry :=
  { registry with queue := registry.queue ++ [.unregister base length] }

/-- Settles the queue, and answers with the regions that this adds to the table. -/
def settle (registry : Registry) : List Region × Registry :=
  let table := registry.queue.foldl RegionTable.apply ⟨registry.regions, []⟩
  (table.registered, { queue := [], regions := table.regions })

/-- Settles the queue, then forgets all regions and answers how many there were. -/
def clear (registry : Registry) : Nat × Registry :=
  (registry.settle.2.regions.length, empty)

end Registry

end ExprHeap
