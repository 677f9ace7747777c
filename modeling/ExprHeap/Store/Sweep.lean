import ExprHeap.Batch
import ExprHeap.Store

/-!
# The sweep

The sweep goes over the slots that existed when the cycle began, in batches, and reclaims each
slot whose node nothing keeps.  It answers with the handles that it took away, in the order of
their slots, and counts them all at the end.
-/

namespace ExprHeap

/-- A sweep under way: the arena and the handles taken away so far. -/
structure Sweep where
  arena : Arena
  freed : Array Handle

namespace Sweep

/-- Goes over one slot. -/
def visit (epoch : Nat) (isLive : Handle → Bool) (sweep : Sweep) (index : Nat) : Sweep :=
  match sweep.arena.reclaim epoch isLive index with
  | (some handle, arena) => { arena := arena, freed := sweep.freed.push handle }
  | (none, arena) => { sweep with arena := arena }

/-- Goes over the slots of a span. -/
def visitSpan (epoch : Nat) (isLive : Handle → Bool) (sweep : Sweep) (span : Span) : Sweep :=
  span.indices.foldl (visit epoch isLive) sweep

end Sweep

/-- Sweeps the slots from `start` up to `stop` in batches. -/
def Store.sweep (store : Store) (batch epoch : Nat) (isLive : Handle → Bool) (start stop : Nat) :
    Array Handle × Store :=
  let sweep := (spans batch start stop).foldl (Sweep.visitSpan epoch isLive) ⟨store.arena, #[]⟩
  (sweep.freed, { store with arena := sweep.arena, frees := store.frees + sweep.freed.size })

end ExprHeap
