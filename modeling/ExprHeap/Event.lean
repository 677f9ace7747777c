import ExprHeap.Mark.Scan

/-!
# Events

Everything that the heap reports as it goes, each with a level and a text.
-/

namespace ExprHeap

/-- How much an event matters. -/
inductive Level where
  | error
  | warn
  | info
  | debug
  | trace
  deriving DecidableEq

namespace Level

/-- All levels, from the one that matters most. -/
def all : List Level := [.error, .warn, .info, .debug, .trace]

/-- The name of a level. -/
def text : Level → String
  | .error => "ERROR"
  | .warn => "WARN"
  | .info => "INFO"
  | .debug => "DEBUG"
  | .trace => "TRACE"

/-- The place of a level in the order of all. -/
def rank : Level → Nat
  | .error => 0
  | .warn => 1
  | .info => 2
  | .debug => 3
  | .trace => 4

end Level

/-- Something that happened. -/
inductive Event where
  | allocated (handle : Handle) (op : Op)
  | registered (region : Region)
  | cycleBegun (epoch size slots : Nat)
  | sighted (sighting : Sighting)
  | scanned (stats : ScanStats)
  | reclaimed (handle : Handle)
  | cycleDone (epoch live freed remaining : Nat)
  | shutDown (nodes regions : Nat)
  /-- The environment is unusable and the default configuration taken. -/
  | defaulted (error : HeapError)
  | regionIgnored (error : HeapError)
  /-- A collection ran after the byte at this offset. -/
  | collectedAt (offset live freed : Nat)
  deriving DecidableEq

namespace Event

/-- How much an event matters. -/
def level : Event → Level
  | .allocated _ _ | .sighted _ | .reclaimed _ => .trace
  | .registered _ | .cycleBegun _ _ _ | .scanned _ | .cycleDone _ _ _ _ | .shutDown _ _ => .debug
  | .collectedAt _ _ _ => .info
  | .defaulted _ => .warn
  | .regionIgnored _ => .error

/-- The text of an event. -/
def text : Event → String
  | .allocated handle op => "(STORE) ALLOC " ++ handle.text ++ " = " ++ op.text
  | .registered region =>
    "(REGIONS) REGISTER " ++ Text.hex region.base.toNat ++ " + " ++ toString region.length ++
      " slots (" ++ region.kind.text ++ ")"
  | .cycleBegun epoch size slots =>
    "(COLLECTOR) EPOCH " ++ toString epoch ++ " SCANNING, STORE SIZE = " ++ toString size ++
      ", SLOTS = " ++ toString slots
  | .sighted (.root handle) => "(SCANNER) ROOT " ++ handle.text
  | .sighted (.rejected word) => "(SCANNER) REJECTED " ++ Text.hex word.toNat
  | .scanned stats =>
    "(SCANNER) REGIONS = " ++ toString stats.regions ++ ", SLOTS = " ++ toString stats.slots ++
      ", ROOTS = " ++ toString stats.roots ++ ", REJECTED = " ++ toString stats.rejected ++
      ", MARKED = " ++ toString stats.marked
  | .reclaimed handle => "(COLLECTOR) FREE " ++ handle.text
  | .cycleDone epoch live freed remaining =>
    "(COLLECTOR) EPOCH " ++ toString epoch ++ " DONE, LIVE = " ++ toString live ++
      ", FREED = " ++ toString freed ++ ", REMAINING = " ++ toString remaining
  | .shutDown nodes regions =>
    "(COLLECTOR) SHUTDOWN, DISCARDED " ++ toString nodes ++ " NODES AND " ++
      toString regions ++ " REGIONS"
  | .defaulted error => error.message ++ ", using the default collector configuration"
  | .regionIgnored error => "ignoring expression region: " ++ error.message
  | .collectedAt offset live freed =>
    "collected at offset " ++ toString offset ++ ": live = " ++ toString live ++
      ", freed = " ++ toString freed

/-- The events that a request for a node gives rise to. -/
def ofAllocation (op : Op) : Allocation → List Event
  | .fresh handle => [.allocated handle op]
  | .shared _ => []

end Event

end ExprHeap
