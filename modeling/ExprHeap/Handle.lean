/-!
# Handles

A handle names one node of the heap in a single 64-bit word: the low half is the index of a
slot, the high half the generation of that slot.  The zero word is the null word and names
nothing.  A handle read from host memory is only a candidate; whether it names a node is
for the store to say.

Every time a slot is vacated it takes its next generation.  Generations run through
`1, 2, …, 2^32 - 1` and then start again at `1`, so zero is never one of them.
-/

namespace ExprHeap

/-- A slot index together with a generation of that slot. -/
structure Handle where
  index : UInt32
  generation : UInt32
  deriving DecidableEq, Hashable, Inhabited

namespace Handle

/-- The number of slots that a 32-bit index can tell apart. -/
def indexBound : Nat := UInt32.size

/-- The word of a handle: its generation above its index. -/
def word (handle : Handle) : UInt64 :=
  (handle.generation.toUInt64 <<< 32) ||| handle.index.toUInt64

/-- Splits a word into index and generation; the null word is no handle. -/
def ofWord? (word : UInt64) : Option Handle :=
  if word = 0 then none
  else some { index := word.toUInt32, generation := (word >>> 32).toUInt32 }

/-- A slot and a generation tell the handle. -/
theorem ext_toNat {first second : Handle} (hindex : first.index.toNat = second.index.toNat)
    (hgeneration : first.generation = second.generation) : first = second := by
  cases first
  cases second
  simp_all [UInt32.toNat_inj]

/-- The text of a handle in messages and log records. -/
def text (handle : Handle) : String :=
  "ExprRef(" ++ toString handle.index ++ "@" ++ toString handle.generation ++ ")"

end Handle

/-- The generation that a slot takes after `generation`: the next one, skipping zero. -/
def nextGeneration (generation : UInt32) : UInt32 :=
  if generation + 1 = 0 then 1 else generation + 1

end ExprHeap
