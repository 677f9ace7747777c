import ExprHeap.Expr.Op
import ExprHeap.Handle

/-!
# Nodes

A node of the expression graph: an operation, the handles of its children in order, and the
width of its value in bits.  Two nodes are equal when all three agree; this equality is what the
store shares nodes by.
-/

namespace ExprHeap

/-- One immutable node of the expression graph. -/
structure Node where
  op : Op
  children : List Handle
  width : UInt32
  deriving DecidableEq, Hashable

/-- The text of a node. -/
def Node.text (node : Node) : String :=
  Text.record "ExprNode" [
    ("op", node.op.text),
    ("children", Text.list (node.children.map Handle.text)),
    ("width", toString node.width)]

end ExprHeap
