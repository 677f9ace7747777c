import ExprHeap.Metrics
import Mathlib.Algebra.Order.Group.Unbundled.Int
import Mathlib.Data.List.Induction
import Mathlib.Tactic.Linarith
import Mathlib.Tactic.Ring
import Mathlib.Tactic.Zify

/-!
# The running average of durations

Every finished collection moves the average of the durations towards its own, by the distance
over the number of collections, rounded down.  All of it happens in 64-bit words, and the rounding
always falls short of the new value, so two things are to be shown: that nothing leaves the words,
and how far the average can drift away from the mean.

## Strategy

* The new average lies between the old one and the new value (`movedAverage_between`), so it never
  leaves the range of the values there have been, and no sum or difference leaves the words.
* Times the number of samples `w`, the new average misses `(w - 1) · old + value` by what the
  division leaves over, which is at most `w - 1` (`abs_weighted_movedAverage_le`).  Along a run
  these errors add up to `0 + 1 + … + (n - 1)` (`Metrics.Averages.record`).
-/

namespace ExprHeap

/-! ### One step -/

section Step

variable {average value samples : UInt64}

/-- The distance is divided by the number of samples, where none counts as one. -/
theorem toNat_weight (samples : UInt64) : (max samples 1).toNat = max samples.toNat 1 := by
  show (if samples ≤ 1 then 1 else samples).toNat = _
  have hiff : samples ≤ 1 ↔ samples.toNat ≤ 1 := UInt64.le_iff_toNat_le
  split
  · rename_i hle
    exact (max_eq_right (hiff.mp hle)).symm
  · rename_i hgt
    exact (max_eq_left (Nat.le_of_not_le fun h => hgt (hiff.mpr h))).symm

theorem toNat_distance (samples : UInt64) {low high : UInt64} (hle : low ≤ high) :
    ((high - low) / max samples 1).toNat = (high.toNat - low.toNat) / max samples.toNat 1 := by
  rw [UInt64.toNat_div, UInt64.toNat_sub_of_le _ _ hle, toNat_weight]

/-- The way that the average goes is no longer than the distance. -/
theorem add_toNat_distance_le (samples : UInt64) {low high : UInt64} (hle : low ≤ high) :
    low.toNat + ((high - low) / max samples 1).toNat ≤ high.toNat := by
  have hle' : low.toNat ≤ high.toNat := UInt64.le_iff_toNat_le.mp hle
  have hquotient := Nat.div_le_self (high.toNat - low.toNat) (max samples.toNat 1)
  rw [toNat_distance samples hle]
  omega

/-- Upwards the sum does not wrap. -/
theorem toNat_movedAverage_of_le (hle : average ≤ value) :
    (movedAverage average value samples).toNat =
      average.toNat + (value.toNat - average.toNat) / max samples.toNat 1 := by
  have hfits := Nat.lt_of_le_of_lt (add_toNat_distance_le samples hle) value.toNat_lt
  unfold movedAverage
  rw [if_pos hle, UInt64.toNat_add, Nat.mod_eq_of_lt hfits, toNat_distance samples hle]

/-- Downwards the difference does not wrap. -/
theorem toNat_movedAverage_of_lt (hlt : value < average) :
    (movedAverage average value samples).toNat =
      average.toNat - (average.toNat - value.toNat) / max samples.toNat 1 := by
  have hle : value ≤ average := UInt64.le_of_lt hlt
  have hfits : (average - value) / max samples 1 ≤ average :=
    UInt64.le_iff_toNat_le.mpr (by have := add_toNat_distance_le samples hle; omega)
  unfold movedAverage
  rw [if_neg (UInt64.not_le.mpr hlt), UInt64.toNat_sub_of_le _ _ hfits, toNat_distance samples hle]

/-- **The new average lies between the old one and the new value.** -/
theorem movedAverage_between (average value samples : UInt64) :
    min average.toNat value.toNat ≤ (movedAverage average value samples).toNat ∧
      (movedAverage average value samples).toNat ≤ max average.toNat value.toNat := by
  by_cases hle : average ≤ value
  · rw [toNat_movedAverage_of_le hle, ← toNat_distance samples hle]
    exact ⟨(min_le_left _ _).trans (Nat.le_add_right _ _),
      (add_toNat_distance_le samples hle).trans (le_max_right _ _)⟩
  · have hlt : value < average := UInt64.not_le.mp hle
    have hbound := add_toNat_distance_le samples (UInt64.le_of_lt hlt)
    rw [toNat_movedAverage_of_lt hlt, ← toNat_distance samples (UInt64.le_of_lt hlt)]
    exact ⟨(min_le_right _ _).trans (Nat.le_sub_of_add_le hbound),
      (Nat.sub_le _ _).trans (le_max_left _ _)⟩

/-- **What a step of weight `w` leaves over is less than `w`.** -/
theorem abs_weighted_movedAverage_le (average value samples : UInt64)
    (hsamples : 1 ≤ samples.toNat) :
    |(samples.toNat * (movedAverage average value samples).toNat -
      ((samples.toNat - 1) * average.toNat + value.toNat) : Int)| ≤ samples.toNat - 1 := by
  have hweight : max samples.toNat 1 = samples.toNat := max_eq_left hsamples
  -- what the division leaves over is all that the step loses
  have hdivide : ∀ distance : Nat,
      (samples.toNat * (distance / samples.toNat) + distance % samples.toNat : Int) = distance ∧
        (distance % samples.toNat : Int) ≤ samples.toNat - 1 ∧
        (0 : Int) ≤ distance % samples.toNat := by
    intro distance
    have hrest : distance % samples.toNat < samples.toNat := Nat.mod_lt _ hsamples
    refine ⟨?_, by omega, by omega⟩
    exact_mod_cast Nat.div_add_mod distance samples.toNat
  rw [abs_le]
  by_cases hle : average ≤ value
  · have hle' : average.toNat ≤ value.toNat := UInt64.le_iff_toNat_le.mp hle
    obtain ⟨hsplit, hrest, hnonneg⟩ := hdivide (value.toNat - average.toNat)
    rw [toNat_movedAverage_of_le hle, hweight]
    push_cast [hle'] at hsplit hrest hnonneg ⊢
    constructor
    · linarith
    · linarith
  · have hlt : value < average := UInt64.not_le.mp hle
    have hle' : value.toNat ≤ average.toNat := UInt64.le_iff_toNat_le.mp (UInt64.le_of_lt hlt)
    obtain ⟨hsplit, hrest, hnonneg⟩ := hdivide (average.toNat - value.toNat)
    have hfits : (average.toNat - value.toNat) / samples.toNat ≤ average.toNat :=
      (Nat.div_le_self _ _).trans (Nat.sub_le _ _)
    rw [toNat_movedAverage_of_lt hlt, hweight]
    push_cast [hle', hfits] at hsplit hrest hnonneg ⊢
    constructor
    · linarith
    · linarith

end Step

/-! ### Runs of steps -/

/-- The average after values with their sample sizes, one after the other. -/
def averageAfter (start : UInt64) (steps : List (UInt64 × UInt64)) : UInt64 :=
  steps.foldl (fun average step => movedAverage average step.1 step.2) start

theorem min_le_and_le_max (values : List Nat) (hne : values ≠ []) :
    ∀ value ∈ values, values.min hne ≤ value ∧ value ≤ values.max hne :=
  fun _ hmem => ⟨List.min_le_of_mem hmem, List.le_max_of_mem hmem⟩

/-- An average that starts within bounds on all the values stays within them. -/
theorem averageAfter_between {low high : Nat} {start : UInt64} (steps : List (UInt64 × UInt64))
    (hstart : low ≤ start.toNat ∧ start.toNat ≤ high)
    (hvalues : ∀ step ∈ steps, low ≤ step.1.toNat ∧ step.1.toNat ≤ high) :
    low ≤ (averageAfter start steps).toNat ∧ (averageAfter start steps).toNat ≤ high := by
  induction steps generalizing start with
  | nil => exact hstart
  | cons step rest ih =>
      obtain ⟨hfirst, hrest⟩ := List.forall_mem_cons.mp hvalues
      obtain ⟨hlow, hhigh⟩ := movedAverage_between start step.1 step.2
      refine ih ⟨?_, ?_⟩ hrest
      · exact (le_min hstart.1 hfirst.1).trans hlow
      · exact hhigh.trans (max_le hstart.2 hfirst.2)

/-! ### Recorded collections -/

/-- What is recorded of a finished collection. -/
structure Recording where
  elapsed : UInt64
  live : Nat
  size : Nat

namespace Metrics

/-- The metrics after collections recorded one after the other. -/
def recordAll (metrics : Metrics) (recordings : List Recording) : Metrics :=
  recordings.foldl (fun metrics recording =>
    metrics.recordCollection recording.elapsed recording.live recording.size) metrics

theorem recordAll_concat (metrics : Metrics) (recordings : List Recording) (last : Recording) :
    metrics.recordAll (recordings ++ [last]) =
      (metrics.recordAll recordings).recordCollection last.elapsed last.live last.size :=
  List.foldl_append

/-- The average of metrics after collections with these durations: it is within every range that
they are within, and `n` times the average misses their sum by at most `0 + 1 + … + (n - 1)`. -/
structure Averages (metrics : Metrics) (durations : List Nat) : Prop where
  collections : metrics.collections = durations.length
  within : durations ≠ [] → ∀ low high,
    (∀ duration ∈ durations, low ≤ duration ∧ duration ≤ high) →
      low ≤ metrics.averageTime.toNat ∧ metrics.averageTime.toNat ≤ high
  drift : 2 * |(durations.length * metrics.averageTime.toNat - durations.sum : Int)| ≤
    durations.length * (durations.length - 1)

theorem averages_initial : Metrics.initial.Averages [] where
  collections := rfl
  within hne := absurd rfl hne
  drift := by simp

variable {metrics : Metrics} {durations : List Nat}

theorem Averages.record (haverages : metrics.Averages durations)
    (hcount : durations.length + 1 < UInt64.size) (elapsed : UInt64) (live size : Nat) :
    (metrics.recordCollection elapsed live size).Averages (durations ++ [elapsed.toNat]) := by
  let samples := UInt64.ofNat (metrics.collections + 1)
  let next := movedAverage metrics.averageTime elapsed samples
  have hsamples : samples.toNat = durations.length + 1 := by
    rw [UInt64.toNat_ofNat_of_lt' (haverages.collections ▸ hcount), haverages.collections]
  have herror := abs_weighted_movedAverage_le metrics.averageTime elapsed samples (by omega)
  rw [hsamples] at herror
  push_cast at herror
  refine ⟨?_, fun _ low high hall => ?_, ?_⟩
  · simp [recordCollection, haverages.collections]
  · show low ≤ next.toNat ∧ next.toNat ≤ high
    have helapsed := hall elapsed.toNat (by simp)
    by_cases hnone : durations = []
    · -- the first average is the first value
      have hfirst : next.toNat = elapsed.toNat := by
        rw [hnone, List.length_nil, Nat.cast_zero, zero_add, sub_self, abs_le] at herror
        have : (next.toNat : Int) = elapsed.toNat := by linarith [herror.1, herror.2]
        exact_mod_cast this
      rwa [hfirst]
    · obtain ⟨hlow, hhigh⟩ := haverages.within hnone low high fun duration hmem =>
        hall duration (List.mem_append_left _ hmem)
      obtain ⟨hnextLow, hnextHigh⟩ := movedAverage_between metrics.averageTime elapsed samples
      exact ⟨(le_min hlow helapsed.1).trans hnextLow, hnextHigh.trans (max_le hhigh helapsed.2)⟩
  · show 2 * |((durations ++ [elapsed.toNat]).length * next.toNat -
      (durations ++ [elapsed.toNat]).sum : Int)| ≤ _
    have hdrift := haverages.drift
    rw [List.length_append, List.sum_append, List.length_singleton, List.sum_singleton]
    simp only [Nat.cast_add, Nat.cast_one]
    -- the new drift is the error of this step on top of the old drift
    have hsplit : ((durations.length + 1) * next.toNat - (durations.sum + elapsed.toNat) : Int) =
        ((durations.length + 1) * next.toNat -
          (durations.length * metrics.averageTime.toNat + elapsed.toNat)) +
        (durations.length * metrics.averageTime.toNat - durations.sum) := by ring
    rw [add_sub_cancel_right] at herror
    calc 2 * |((durations.length + 1) * next.toNat - (durations.sum + elapsed.toNat) : Int)|
        ≤ 2 * (durations.length + |(durations.length * metrics.averageTime.toNat -
            durations.sum : Int)|) := by
          rw [hsplit]
          linarith [abs_add_le
            ((durations.length + 1) * next.toNat -
              (durations.length * metrics.averageTime.toNat + elapsed.toNat) : Int)
            (durations.length * metrics.averageTime.toNat - durations.sum)]
      _ ≤ (durations.length + 1) * (durations.length + 1 - 1) := by linarith

theorem averages_recordAll (recordings : List Recording)
    (hcount : recordings.length < UInt64.size) :
    (initial.recordAll recordings).Averages (recordings.map (·.elapsed.toNat)) := by
  induction recordings using List.reverseRecOn with
  | nil => exact averages_initial
  | append_singleton earlier last ih =>
      rw [List.length_append, List.length_singleton] at hcount
      have hearlier := ih (Nat.lt_of_succ_lt hcount)
      rw [recordAll_concat, List.map_append, List.map_singleton]
      exact hearlier.record (by rwa [List.length_map]) last.elapsed last.live last.size

end Metrics

/-- **The running average stays in range, and its drift is bounded.**  After `n` durations recorded
on fresh metrics it lies between the least and the greatest of them, and `n` times the average
misses their sum by at most `n (n - 1) / 2`.  From any start, with any values and sample sizes, it
lies between the least and the greatest of the start and the values so far, so that neither the
next sum nor the next difference leaves 64 bits. -/
theorem running_average_in_range (recordings : List Recording) (hsome : recordings ≠ [])
    (hcount : recordings.length < UInt64.size) :
    (let durations := recordings.map (·.elapsed.toNat)
     let average := (Metrics.initial.recordAll recordings).averageTime.toNat
     durations.min (mt List.map_eq_nil_iff.mp hsome) ≤ average ∧
      average ≤ durations.max (mt List.map_eq_nil_iff.mp hsome) ∧
      |(durations.length * average - durations.sum : Int)| ≤
        durations.length * (durations.length - 1) / 2) ∧
    ∀ (start : UInt64) (steps : List (UInt64 × UInt64)),
      let values := start.toNat :: steps.map (·.1.toNat)
      let average := averageAfter start steps
      values.min (List.cons_ne_nil _ _) ≤ average.toNat ∧
        average.toNat ≤ values.max (List.cons_ne_nil _ _) ∧
        ∀ value samples : UInt64,
          (average ≤ value →
            average.toNat + ((value - average) / max samples 1).toNat < UInt64.size) ∧
          (value < average → ((average - value) / max samples 1).toNat ≤ average.toNat) ∧
          movedAverage average value 0 = movedAverage average value 1 := by
  refine ⟨?_, fun start steps => ?_⟩
  · intro durations average
    have haverages := Metrics.averages_recordAll recordings hcount
    have hne : durations ≠ [] := mt List.map_eq_nil_iff.mp hsome
    obtain ⟨hlow, hhigh⟩ := haverages.within hne _ _ (min_le_and_le_max _ hne)
    refine ⟨hlow, hhigh, ?_⟩
    rw [Int.le_ediv_iff_mul_le (by decide), mul_comm]
    exact haverages.drift
  · intro values average
    have hvalues := min_le_and_le_max values (List.cons_ne_nil _ _)
    obtain ⟨hlow, hhigh⟩ := averageAfter_between _ (hvalues _ List.mem_cons_self)
      fun step hstep => hvalues _ (List.mem_cons_of_mem _ (List.mem_map_of_mem hstep))
    refine ⟨hlow, hhigh, fun value samples => ⟨fun hle => ?_, fun hlt => ?_, rfl⟩⟩
    · exact (add_toNat_distance_le samples hle).trans_lt value.toNat_lt
    · exact le_of_add_le_right (add_toNat_distance_le samples (UInt64.le_of_lt hlt))

/-- Three collections of 100, 50 and 75 microseconds take 75 on average. -/
theorem running_average_of_three :
    let recordings := [⟨100, 0, 0⟩, ⟨50, 0, 0⟩, ⟨75, 0, 0⟩]
    let average := (Metrics.initial.recordAll recordings).averageTime
    average = 75 ∧ 50 ≤ average.toNat ∧ average.toNat ≤ 100 ∧
      |(3 * average.toNat - 225 : Int)| ≤ 3 := by
  obtain ⟨⟨hlow, hhigh, hdrift⟩, -⟩ := running_average_in_range
    [⟨100, 0, 0⟩, ⟨50, 0, 0⟩, ⟨75, 0, 0⟩] (List.cons_ne_nil _ _) (by decide)
  exact ⟨by decide, hlow, hhigh, hdrift⟩

end ExprHeap
