import ExprHeap.Error

/-!
# The live set

The set of handles that a scan has found reachable.  It is a table from slot index to the
generation that was seen, where zero, which is no generation, marks an index that was not seen.
A handle to a slot that has since been reused is therefore never a member.  The table grows as
far as the largest index inserted.

An index takes one generation only: a handle is not inserted, and that is a fault, where the
table holds another generation of its slot.
-/

namespace ExprHeap

/-- The generation seen for each index, and the number of insertions. -/
structure LiveSet where
  generations : Array UInt32
  size : Nat
  deriving DecidableEq

namespace LiveSet

/-- The set without members. -/
def empty : LiveSet := { generations := #[], size := 0 }

/-- Whether there are no members. -/
def isEmpty (live : LiveSet) : Bool := live.size == 0

/-- Whether a handle is a member. -/
def contains (live : LiveSet) (handle : Handle) : Bool :=
  live.generations[handle.index.toNat]? == some handle.generation

/-- The generation seen for an index, zero if none was. -/
def generationAt (live : LiveSet) (index : Nat) : UInt32 :=
  live.generations[index]?.getD 0

/-- The table, long enough to hold an index. -/
def reaching (generations : Array UInt32) (index : Nat) : Array UInt32 :=
  generations ++ Array.replicate (index + 1 - generations.size) 0

/-- Inserts a handle and answers whether it was not a member before. -/
def insert (live : LiveSet) (handle : Handle) : Except Fault (Bool × LiveSet) :=
  let index := handle.index.toNat
  let known := live.generationAt index
  let generations := reaching live.generations index
  if known = handle.generation then .ok (false, { live with generations := generations })
  else if known ≠ 0 then .error (.generationClash known)
  else .ok (true, {
    generations := generations.setIfInBounds index handle.generation
    size := live.size + 1 })

/-- The members in the order of their indices. -/
def toList (live : LiveSet) : List Handle :=
  live.generations.toList.zipIdx.filterMap fun (generation, index) =>
    if generation = 0 then none
    else some { index := UInt32.ofNat index, generation := generation }

end LiveSet

end ExprHeap
