import ExprHeap.Config.Environment
import ExprHeap.Heap.Collection
import ExprHeap.Heap.Construction

/-!
# A shadow stack

An example of instrumented code: a checksum over symbolic input bytes whose intermediate values
live in frames of slots, each frame a region for as long as it is on the stack.

Every byte is widened and mixed into an accumulator, and compared with the byte before it.  The
accumulator and the last byte are kept in the frame of the callee; the comparisons go into the
frame of the caller, one after the other and around again, and outlive the call.  What a byte is
does not matter, since the input is symbolic; only its offset does.

No time is measured here: every collection counts as taking none.
-/

namespace ExprHeap.ShadowStack

/-- A program in the middle of its run: its heap and its memory. -/
structure Machine where
  heap : Heap
  memory : Memory

/-- A row of slots on the stack. -/
structure Frame where
  base : UInt64
  length : Nat
  deriving DecidableEq

/-- Takes a result for granted. -/
def expect {α : Type} : Except HeapError α → Except Fault α
  | .ok value => .ok value
  | .error error => .error (.unexpected error)

namespace Frame

/-- The address after the last slot. -/
def top (frame : Frame) : UInt64 :=
  Memory.slotAddress frame.base frame.length

/-- The handle in a slot. -/
def get (frame : Frame) (memory : Memory) (slot : Nat) : Option Handle :=
  Handle.ofWord? (memory.read (Memory.slotAddress frame.base slot))

/-- Puts a handle into a slot. -/
def set (frame : Frame) (memory : Memory) (slot : Nat) (handle : Handle) : Memory :=
  memory.write (Memory.slotAddress frame.base slot) handle.word

/-- Puts a frame of null words on the stack. -/
def push (machine : Machine) (base : UInt64) (length : Nat) : Except Fault (Frame × Machine) := do
  let heap ← expect (machine.heap.register base (UInt64.ofNat length) .stackShadow)
  return ({ base := base, length := length },
    { heap := heap, memory := machine.memory.fill base length 0 })

/-- Takes a frame off the stack. -/
def pop (frame : Frame) (machine : Machine) : Machine :=
  { machine with heap := machine.heap.unregister frame.base (UInt64.ofNat frame.length) }

end Frame

/-- Builds a node that must not fail. -/
def construct (heap : Heap) (construction : Construction) : Except Fault (Handle × Heap) :=
  expect (heap.build construction)

/-- Mixes a widened byte into the accumulator, if there is one already. -/
def mix (heap : Heap) (wide : Handle) : Option Handle → Except Fault (Handle × Heap)
  | none => .ok (wide, heap)
  | some accumulator => do
    let (one, heap) ← construct heap (.integer 1 32)
    let (shifted, heap) ← construct heap (.binary .shiftLeft accumulator one)
    construct heap (.binary .xor shifted wide)

/-- Compares a byte with the one before it, if there is one, and keeps the comparison in the
frame of the caller. -/
def compareWithPrevious (machine : Machine) (caller : Frame) (offset : Nat) (byte : Handle) :
    Option Handle → Except Fault Machine
  | none => .ok machine
  | some previous => do
    let (comparison, heap) ← construct machine.heap (.compare .unsignedLessThan previous byte)
    if caller.length = 0 then .error .noSlots
    else return {
      heap := heap
      memory := caller.set machine.memory (offset % caller.length) comparison }

/-- Takes in the byte at an offset. -/
def absorb (machine : Machine) (caller callee : Frame) (offset : Nat) : Except Fault Machine := do
  let (byte, heap) ← construct machine.heap (.input (UInt64.ofNat offset))
  let (wide, heap) ← construct heap (.cast .zeroExtend byte 32)
  let (accumulator, heap) ← mix heap wide (callee.get machine.memory 0)
  let machine ← compareWithPrevious { machine with heap := heap } caller offset byte
    (callee.get machine.memory 1)
  let memory := callee.set machine.memory 0 accumulator
  return { machine with memory := callee.set memory 1 byte }

/-- Takes in the byte at an offset and collects if a collection is due. -/
def step (caller callee : Frame) (machine : Machine) (offset : Nat) : Except Fault Machine := do
  let machine ← absorb machine caller callee offset
  let (report?, heap) ← machine.heap.maybeCollect machine.memory 0
  match report? with
  | some report =>
    return { machine with heap := heap.note [.collectedAt offset report.live report.freed] }
  | none => return { machine with heap := heap }

/-- The checksum of an input of so many bytes, computed in a callee frame at `base`. -/
def checksum (machine : Machine) (caller : Frame) (base : UInt64) (length : Nat) :
    Except Fault Machine := do
  let (callee, machine) ← Frame.push machine base 2
  let machine ← (List.range length).foldlM (step caller callee) machine
  return callee.pop machine

/-! ## The program -/

/-- What a program leaves behind: the lines that it printed and, if it did not end well, what it
complains of. -/
structure Outcome where
  lines : List String
  complaint : Option String

/-- The exit status. -/
def Outcome.status (outcome : Outcome) : Nat :=
  if outcome.complaint.isSome then 101 else 0

/-- Ends the program with nothing more printed. -/
def Outcome.ofFault (fault : Fault) : Outcome :=
  { lines := [], complaint := some fault.message }

/-- The address of the first frame. -/
def stackBase : UInt64 := 0x100000000000

/-- The number of input bytes of the program. -/
def inputLength : Nat := 4096

/-- One round of the program: a checksum, a collection, and a line about it. -/
def round (main : Frame) (machine : Machine) (number : Nat) : Except Fault (String × Machine) := do
  let machine ← checksum machine main main.top inputLength
  let (report, heap) ← machine.heap.collect machine.memory 0
  return ("round " ++ toString number ++ ": " ++ toString report.live ++
    " nodes live after the callee returned (" ++ toString report.freed ++ " freed)",
    { machine with heap := { heap with journal := #[] } })

/-- What is printed after the last round. -/
def closing (main : Frame) (machine : Machine) : Except Fault (List String) := do
  let machine := main.pop machine
  let (report, heap) ← machine.heap.collect machine.memory 0
  let (snapshot, heap) := heap.snapshot
  let (leftover, _) := heap.shutdown
  return ("after main returned: " ++ toString report.remaining ++ " nodes left") ::
    Text.recordLines "GcMetrics" snapshot.fields ++
    ["shutdown discarded " ++ toString leftover.nodes ++ " nodes"]

/-- The rounds with these numbers, then the closing lines.  A fault ends the program where it
arises, and what was printed before stays printed. -/
def rounds (main : Frame) (machine : Machine) : List Nat → Outcome
  | [] =>
    match closing main machine with
    | .ok lines => { lines := lines, complaint := none }
    | .error fault => .ofFault fault
  | number :: rest =>
    match round main machine number with
    | .ok (line, machine) =>
      let outcome := rounds main machine rest
      { outcome with lines := line :: outcome.lines }
    | .error fault => .ofFault fault

/-- The program: four rounds in a frame of sixteen slots.  A collection is due from 256 nodes
on, whatever the environment says. -/
def program (lookup : Setting → Option String) : Outcome :=
  match Config.ofLookup lookup with
  | .error error =>
    { lines := [], complaint := some ("bad SYMGC_* environment: " ++ error.text) }
  | .ok config =>
    let heap := Heap.empty { config with collectThreshold := 256 }
    match Frame.push { heap := heap, memory := .zeroed } stackBase 16 with
    | .ok (main, machine) => rounds main machine (List.range 4)
    | .error fault => .ofFault fault

end ExprHeap.ShadowStack
