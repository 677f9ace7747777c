import ExprHeap.Error

/-!
# Metrics

What a heap remembers of its collections: how many there were, their average duration, what
the last one left, and the largest size with which one began.
-/

namespace ExprHeap

/-- What the collector is doing. -/
inductive Phase where
  | idle
  | scanning
  | reclaiming
  deriving DecidableEq

namespace Phase

/-- The name of a phase. -/
def text : Phase → String
  | .idle => "Idle"
  | .scanning => "Scanning"
  | .reclaiming => "Reclaiming"

/-- The phase with this number. -/
def ofNumber : Nat → Except Fault Phase
  | 0 => .ok .idle
  | 1 => .ok .scanning
  | 2 => .ok .reclaiming
  | _ => .error .badPhase

/-- The phase with this name. -/
def named? (name : String) : Option Phase :=
  [idle, scanning, reclaiming].find? (·.text == name)

end Phase

/-- The average after one more sample: it moves towards the new value by the distance divided by
the number of samples, rounded down. -/
def movedAverage (average value samples : UInt64) : UInt64 :=
  let weight := max samples 1
  if average ≤ value then average + (value - average) / weight
  else average - (average - value) / weight

/-- What is remembered of the collections of a heap. -/
structure Metrics where
  phase : Phase
  /-- The number of collections finished. -/
  collections : Nat
  /-- The running average of their durations, in microseconds. -/
  averageTime : UInt64
  /-- The nodes that the last collection found live. -/
  lastLive : Nat
  /-- The size of the store when the last collection was finished. -/
  previousSize : Nat
  /-- The largest size of the store when a collection began. -/
  largestSize : Nat
  deriving DecidableEq

namespace Metrics

/-- No collections yet. -/
def initial : Metrics where
  phase := .idle
  collections := 0
  averageTime := 0
  lastLive := 0
  previousSize := 0
  largestSize := 0

/-- Remembers a finished collection. -/
def recordCollection (metrics : Metrics) (elapsed : UInt64) (live size : Nat) : Metrics :=
  let collections := metrics.collections + 1
  { metrics with
    collections := collections
    averageTime := movedAverage metrics.averageTime elapsed (UInt64.ofNat collections)
    lastLive := live
    previousSize := size }

/-- Remembers the size with which a collection begins. -/
def recordSize (metrics : Metrics) (size : Nat) : Metrics :=
  { metrics with largestSize := max metrics.largestSize size }

end Metrics

end ExprHeap
