/-!
# Batches

Long ranges of indices are worked through in batches.  `spans` cuts a range into consecutive
spans of at most `batch` indices, where a batch of zero counts as one.
-/

namespace ExprHeap

/-- A run of consecutive indices, from `start` up to but not including `stop`. -/
structure Span where
  start : Nat
  stop : Nat
  deriving DecidableEq

/-- The indices of a span, in order. -/
def Span.indices (span : Span) : List Nat :=
  List.range' span.start (span.stop - span.start)

/-- Where the batch that starts at `start` ends. -/
def batchEnd (batch start stop : Nat) : Nat :=
  min (start + max batch 1) stop

/-- The consecutive batches of the range from `start` to `stop`. -/
def spans (batch start stop : Nat) : List Span :=
  if start < stop then
    ⟨start, batchEnd batch start stop⟩ :: spans batch (batchEnd batch start stop) stop
  else []
termination_by stop - start
decreasing_by simp only [batchEnd]; omega

end ExprHeap
