import ExprHeap.Batch

/-!
# Batches cover their range

However a range is cut into batches, going over the batches one after the other is
going over the range in order: no index is left out and none comes twice.
-/

namespace ExprHeap

/-- **The batches of a range, laid end to end, are the range.** -/
theorem flatMap_indices_spans (batch start stop : Nat) :
    (spans batch start stop).flatMap Span.indices = List.range' start (stop - start) := by
  fun_induction spans batch start stop with
  | case1 start hlt ih =>
      have hfirst : start ≤ batchEnd batch start stop := by
        unfold batchEnd
        omega
      have hlast : batchEnd batch start stop ≤ stop := Nat.min_le_right _ _
      -- the second span starts where the first one ends
      have hsplit : List.range' start (stop - start) =
          List.range' start (batchEnd batch start stop - start) ++
            List.range' (start + (batchEnd batch start stop - start))
              (stop - batchEnd batch start stop) := by
        rw [List.range'_append_1]
        congr 1
        omega
      rw [List.flatMap_cons, ih, Span.indices, hsplit, Nat.add_sub_cancel' hfirst]
  | case2 start hge =>
      rw [Nat.sub_eq_zero_of_le (Nat.le_of_not_lt hge)]
      rfl

end ExprHeap
