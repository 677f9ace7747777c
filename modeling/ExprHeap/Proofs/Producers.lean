import ExprHeap.Heap.Construction
import ExprHeap.Proofs.Sessions

/-!
# Producers

A producer builds expressions in scopes.  Within a scope it gives the things it
has a number each, in the order in which it comes by them, and uses them by their
numbers: the answers of the heap, and what it reads from slots.  Nothing but the
slots is left of a scope when it closes.

Between scopes, and only there, the heap may be collected.  When that happens is
no part of the program: a *schedule* says what is called before each scope.
`Session.produce` runs a program under a schedule, and answers with the points
that the run comes through.
-/

namespace ExprHeap

/-- What can be asked for, but for the operands. -/
inductive Builder where
  | exactly (op : Op) (width : UInt32)
  | integer (value : BitVec 128) (width : UInt32)
  | bool (value : Bool)
  | float (bits : UInt64) (double : Bool)
  | nullPointer
  | input (offset : UInt64)
  | unary (op : UnaryOp)
  | binary (op : BinaryOp)
  | compare (predicate : Predicate)
  | cast (op : CastOp) (width : UInt32)
  | extract (first last : UInt32)
  | concat
  | ite
  | memoryRead (bytes : UInt32)

namespace Builder

/-- The construction with these operands, if it takes so many. -/
def construction? : Builder → List Handle → Option Construction
  | .exactly op width, operands => some (.exactly ⟨op, operands, width⟩)
  | .integer value width, [] => some (.integer value width)
  | .bool value, [] => some (.bool value)
  | .float bits double, [] => some (.float bits double)
  | .nullPointer, [] => some .nullPointer
  | .input offset, [] => some (.input offset)
  | .unary op, [operand] => some (.unary op operand)
  | .binary op, [left, right] => some (.binary op left right)
  | .compare predicate, [left, right] => some (.compare predicate left right)
  | .cast op width, [operand] => some (.cast op operand width)
  | .extract first last, [operand] => some (.extract operand first last)
  | .concat, [high, low] => some (.concat high low)
  | .ite, [condition, positive, negative] => some (.ite condition positive negative)
  | .memoryRead bytes, [address] => some (.memoryRead address bytes)
  | _, _ => none

end Builder

/-- One instruction of a producer. -/
inductive Instruction where
  /-- Asks for a node; the operands are numbers of things in this scope. -/
  | build (builder : Builder) (operands : List Nat)
  /-- Reads the slot at this address. -/
  | load (slot : UInt64)
  /-- Writes a thing of this scope, or null, into the slot at this address. -/
  | store (slot : UInt64) (source : Option Nat)

/-- The address of the slot that an instruction uses, if any. -/
def Instruction.slot? : Instruction → Option UInt64
  | .build _ _ => none
  | .load slot => some slot
  | .store slot _ => some slot

/-- What became of an instruction. -/
inductive Outcome where
  /-- None yet: the scope has just been opened. -/
  | opened
  | built
  | failed (error : HeapError)
  /-- An operand is missing, so nothing could be asked for. -/
  | skipped
  | loaded
  | stored
  deriving DecidableEq

/-- A point in the run of a producer. -/
structure Point where
  outcome : Outcome
  session : Session
  /-- The things of this scope by their numbers.  What was read as null is missing, and so is the
  answer to what failed or was skipped. -/
  locals : List (Option Handle)

namespace Point

/-- The thing with a number, unless it is missing. -/
def thing? (point : Point) (number : Nat) : Option Handle :=
  point.locals[number]?.getD none

/-- The word that is stored for a thing; null stands for what is missing. -/
def wordOf (point : Point) (source : Option Nat) : UInt64 :=
  match source.bind point.thing? with
  | some handle => handle.word
  | none => 0

/-- Asks for a node. -/
def build (point : Point) (construction : Construction) : Point :=
  match point.session.heap.build construction with
  | .ok (handle, heap) => {
      outcome := .built
      session := { point.session with heap := heap }
      locals := point.locals ++ [some handle] }
  | .error error => { point with outcome := .failed error, locals := point.locals ++ [none] }

/-- The point after an instruction. -/
def step (point : Point) : Instruction → Point
  | .build builder operands =>
    match (operands.mapM point.thing?).bind builder.construction? with
    | some construction => point.build construction
    | none => { point with outcome := .skipped, locals := point.locals ++ [none] }
  | .load slot => { point with
      outcome := .loaded
      locals := point.locals ++ [Handle.ofWord? (point.session.memory.read slot)] }
  | .store slot source => { point with
      outcome := .stored
      session := point.session.request (.write slot (point.wordOf source)) }

/-- The points of a scope from this one on. -/
def trace (point : Point) : List Instruction → List Point
  | [] => [point]
  | instruction :: rest => point :: (point.step instruction).trace rest

/-- The point where a scope closes. -/
def finish (point : Point) (instructions : List Instruction) : Point :=
  instructions.foldl step point

end Point

/-- What may be called between two scopes. -/
inductive Pause where
  | collect (elapsed : UInt64)
  | maybeCollect (elapsed : UInt64)

namespace Session

/-- The session after a call between two scopes. -/
def pause (session : Session) : Pause → Except Fault Session
  | .collect elapsed =>
    (session.heap.collect session.memory elapsed).map fun (_, heap) =>
      { session with heap := heap }
  | .maybeCollect elapsed =>
    (session.heap.maybeCollect session.memory elapsed).map fun (_, heap) =>
      { session with heap := heap }

/-- A scope that has just been opened. -/
def openScope (session : Session) : Point :=
  { outcome := .opened, session := session, locals := [] }

/-- Runs the scopes of a program from number `turn` on, and at last opens one more to look at the
slots.  Before each scope come the calls that the schedule has for it. -/
def produce (schedule : Nat → List Pause) (turn : Nat) (session : Session) :
    List (List Instruction) → Except Fault (List Point)
  | [] => do
    let session ← (schedule turn).foldlM pause session
    return [session.openScope]
  | scope :: rest => do
    let session ← (schedule turn).foldlM pause session
    let later ← produce schedule (turn + 1) (session.openScope.finish scope).session rest
    return session.openScope.trace scope ++ later

/-- The session in which these regions have been registered with an empty heap. -/
def withRegions (config : Config) (memory : Memory) (regions : List Region) : Session :=
  Session.requestAll ⟨.empty config, memory⟩
    (regions.map fun region => .register region.base region.length region.kind)

end Session

end ExprHeap
