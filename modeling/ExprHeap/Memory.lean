import Std.Data.HashMap

/-!
# Host memory

The memory of the host program, as far as the heap reads it: a word at each address, zero until
the host has written one.
-/

namespace ExprHeap

/-- The words that the host has written, by address. -/
structure Memory where
  words : Std.HashMap UInt64 UInt64

namespace Memory

/-- Memory in which nothing has been written. -/
def zeroed : Memory := ⟨∅⟩

/-- The word at an address. -/
def read (memory : Memory) (address : UInt64) : UInt64 :=
  memory.words[address]?.getD 0

/-- Writes a word. -/
def write (memory : Memory) (address word : UInt64) : Memory :=
  ⟨memory.words.insert address word⟩

/-- The address of the slot with this number in a row of slots, eight bytes to a slot. -/
def slotAddress (base : UInt64) (slot : Nat) : UInt64 :=
  base + UInt64.ofNat (8 * slot)

/-- Writes one word into so many slots in a row. -/
def fill (memory : Memory) (base : UInt64) (count : Nat) (word : UInt64) : Memory :=
  (List.range count).foldl (fun memory slot => memory.write (slotAddress base slot) word) memory

end Memory

end ExprHeap
