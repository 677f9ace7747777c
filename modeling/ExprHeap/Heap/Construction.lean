import ExprHeap.Heap.Basic
import ExprHeap.Ieee.Single

/-!
# Constructions

The ways to ask for a node.  A construction works out the operation and the width of its node,
from the widths of its operands where it has to; it does not compare the widths of operands
with each other.  `Construction.toNode` is that step, and `Heap.build` allocates the result, which
checks the operands themselves.
-/

namespace ExprHeap

/-- A request for a node. -/
inductive Construction where
  /-- Any node. -/
  | exactly (node : Node)
  /-- An integer constant, cut down to so many bits. -/
  | integer (value : BitVec 128) (width : UInt32)
  | bool (value : Bool)
  /-- The constant with the bits of a double, kept as one or narrowed to a single. -/
  | float (bits : UInt64) (double : Bool)
  | nullPointer
  | input (offset : UInt64)
  | unary (op : UnaryOp) (operand : Handle)
  | binary (op : BinaryOp) (left right : Handle)
  | compare (predicate : Predicate) (left right : Handle)
  | cast (op : CastOp) (operand : Handle) (width : UInt32)
  | extract (operand : Handle) (first last : UInt32)
  | concat (high low : Handle)
  | ite (condition positive negative : Handle)
  | memoryRead (address : Handle) (bytes : UInt32)

/-- The mask of the low bits, as many as the width says or all of them. -/
def lowBits (width : UInt32) : BitVec 128 :=
  if 128 ≤ width.toNat then .allOnes 128 else (1#128 <<< width.toNat) - 1#128

/-- The low bits of an integer, as many as the width says or all of them. -/
def truncated (value : BitVec 128) (width : UInt32) : BitVec 128 := value &&& lowBits width

namespace Construction

/-- The node that is asked for, given the widths of nodes that are there. -/
def toNode (widthOf : Handle → Except HeapError UInt32) : Construction → Except HeapError Node
  | .exactly node => .ok node
  | .integer value width => .ok ⟨.integer (truncated value width), [], width⟩
  | .bool value => .ok ⟨.bool value, [], 1⟩
  | .float bits true => .ok ⟨.float bits, [], 64⟩
  | .float bits false => .ok ⟨.float (Ieee.Single.ofDouble bits).bits.toUInt64, [], 32⟩
  | .nullPointer => .ok ⟨.nullPointer, [], 64⟩
  | .input offset => .ok ⟨.input offset, [], 8⟩
  | .unary op operand => do
    return ⟨.unary op, [operand], ← widthOf operand⟩
  | .binary op left right => do
    return ⟨.binary op, [left, right], ← widthOf left⟩
  | .compare predicate left right => .ok ⟨.compare predicate, [left, right], 1⟩
  | .cast op operand width => .ok ⟨.cast op, [operand], width⟩
  | .extract operand first last => do
    let width ← widthOf operand
    if first < last || width ≤ first then .error (.badExtract first last width)
    else return ⟨.extract first last, [operand], first - last + 1⟩
  | .concat high low => do
    let highWidth ← widthOf high
    let lowWidth ← widthOf low
    if highWidth.toNat + lowWidth.toNat < UInt32.size then
      return ⟨.concat, [high, low], highWidth + lowWidth⟩
    else .error (.badWidth .concat)
  | .ite condition positive negative => do
    return ⟨.ite, [condition, positive, negative], ← widthOf positive⟩
  | .memoryRead address bytes =>
    if 8 * bytes.toNat < UInt32.size then .ok ⟨.memoryRead bytes, [address], 8 * bytes⟩
    else .error (.badWidth (.memoryRead bytes))

end Construction

/-- Builds a node and answers with its handle. -/
def Heap.build (heap : Heap) (construction : Construction) : Except HeapError (Handle × Heap) :=
  match construction.toNode heap.store.widthOf with
  | .ok node => heap.allocate node
  | .error error => .error error

end ExprHeap
