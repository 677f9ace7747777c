import ExprHeap.Text.Record

/-!
# Operations

An expression node performs one operation on its children.  Leaves carry whatever makes them
distinct, a constant its value and an input byte its offset, so that two leaves are the same
node exactly when they denote the same value.
-/

namespace ExprHeap

/-- Operations on one value that keep its width. -/
inductive UnaryOp where
  | neg
  | not
  | fpAbs
  | fpNeg
  deriving DecidableEq, Hashable

namespace UnaryOp

/-- The name of a unary operation. -/
def text : UnaryOp → String
  | .neg => "Neg"
  | .not => "Not"
  | .fpAbs => "FpAbs"
  | .fpNeg => "FpNeg"

/-- All of them, in order. -/
def all : List UnaryOp := [
  .neg, .not, .fpAbs, .fpNeg]

/-- The one with this name. -/
def named? (name : String) : Option UnaryOp :=
  all.find? (·.text == name)

end UnaryOp

/-- Operations on two values of one width. -/
inductive BinaryOp where
  | add
  | sub
  | mul
  | unsignedDiv
  | signedDiv
  | unsignedRem
  | signedRem
  | shiftLeft
  | logicalShiftRight
  | arithmeticShiftRight
  | and
  | or
  | xor
  | boolAnd
  | boolOr
  | boolXor
  | fpAdd
  | fpSub
  | fpMul
  | fpDiv
  | fpRem
  deriving DecidableEq, Hashable

namespace BinaryOp

/-- The name of a binary operation. -/
def text : BinaryOp → String
  | .add => "Add"
  | .sub => "Sub"
  | .mul => "Mul"
  | .unsignedDiv => "UnsignedDiv"
  | .signedDiv => "SignedDiv"
  | .unsignedRem => "UnsignedRem"
  | .signedRem => "SignedRem"
  | .shiftLeft => "ShiftLeft"
  | .logicalShiftRight => "LogicalShiftRight"
  | .arithmeticShiftRight => "ArithmeticShiftRight"
  | .and => "And"
  | .or => "Or"
  | .xor => "Xor"
  | .boolAnd => "BoolAnd"
  | .boolOr => "BoolOr"
  | .boolXor => "BoolXor"
  | .fpAdd => "FpAdd"
  | .fpSub => "FpSub"
  | .fpMul => "FpMul"
  | .fpDiv => "FpDiv"
  | .fpRem => "FpRem"

/-- All of them, in order. -/
def all : List BinaryOp := [
  .add, .sub, .mul, .unsignedDiv, .signedDiv, .unsignedRem, .signedRem, .shiftLeft,
  .logicalShiftRight, .arithmeticShiftRight, .and, .or, .xor, .boolAnd, .boolOr, .boolXor,
  .fpAdd, .fpSub, .fpMul, .fpDiv, .fpRem]

/-- The one with this name. -/
def named? (name : String) : Option BinaryOp :=
  all.find? (·.text == name)

end BinaryOp

/-- Comparisons of integers, and of floats with and without regard to NaN. -/
inductive Predicate where
  | equal
  | notEqual
  | unsignedLessThan
  | unsignedLessEqual
  | unsignedGreaterThan
  | unsignedGreaterEqual
  | signedLessThan
  | signedLessEqual
  | signedGreaterThan
  | signedGreaterEqual
  | floatOrderedEqual
  | floatOrderedNotEqual
  | floatOrderedLessThan
  | floatOrderedLessEqual
  | floatOrderedGreaterThan
  | floatOrderedGreaterEqual
  | floatOrdered
  | floatUnordered
  | floatUnorderedEqual
  | floatUnorderedNotEqual
  | floatUnorderedLessThan
  | floatUnorderedLessEqual
  | floatUnorderedGreaterThan
  | floatUnorderedGreaterEqual
  deriving DecidableEq, Hashable

namespace Predicate

/-- The name of a predicate. -/
def text : Predicate → String
  | .equal => "Equal"
  | .notEqual => "NotEqual"
  | .unsignedLessThan => "UnsignedLessThan"
  | .unsignedLessEqual => "UnsignedLessEqual"
  | .unsignedGreaterThan => "UnsignedGreaterThan"
  | .unsignedGreaterEqual => "UnsignedGreaterEqual"
  | .signedLessThan => "SignedLessThan"
  | .signedLessEqual => "SignedLessEqual"
  | .signedGreaterThan => "SignedGreaterThan"
  | .signedGreaterEqual => "SignedGreaterEqual"
  | .floatOrderedEqual => "FloatOrderedEqual"
  | .floatOrderedNotEqual => "FloatOrderedNotEqual"
  | .floatOrderedLessThan => "FloatOrderedLessThan"
  | .floatOrderedLessEqual => "FloatOrderedLessEqual"
  | .floatOrderedGreaterThan => "FloatOrderedGreaterThan"
  | .floatOrderedGreaterEqual => "FloatOrderedGreaterEqual"
  | .floatOrdered => "FloatOrdered"
  | .floatUnordered => "FloatUnordered"
  | .floatUnorderedEqual => "FloatUnorderedEqual"
  | .floatUnorderedNotEqual => "FloatUnorderedNotEqual"
  | .floatUnorderedLessThan => "FloatUnorderedLessThan"
  | .floatUnorderedLessEqual => "FloatUnorderedLessEqual"
  | .floatUnorderedGreaterThan => "FloatUnorderedGreaterThan"
  | .floatUnorderedGreaterEqual => "FloatUnorderedGreaterEqual"

/-- All of them, in order. -/
def all : List Predicate := [
  .equal, .notEqual, .unsignedLessThan, .unsignedLessEqual, .unsignedGreaterThan,
  .unsignedGreaterEqual, .signedLessThan, .signedLessEqual, .signedGreaterThan,
  .signedGreaterEqual, .floatOrderedEqual, .floatOrderedNotEqual, .floatOrderedLessThan,
  .floatOrderedLessEqual, .floatOrderedGreaterThan, .floatOrderedGreaterEqual, .floatOrdered,
  .floatUnordered, .floatUnorderedEqual, .floatUnorderedNotEqual, .floatUnorderedLessThan,
  .floatUnorderedLessEqual, .floatUnorderedGreaterThan, .floatUnorderedGreaterEqual]

/-- The one with this name. -/
def named? (name : String) : Option Predicate :=
  all.find? (·.text == name)

end Predicate

/-- Conversions from one type or width to another. -/
inductive CastOp where
  | zeroExtend
  | signExtend
  | truncate
  | boolToBits
  | intToFloat (signed : Bool)
  | floatToInt (signed : Bool)
  | floatToFloat
  | bitsToFloat
  | floatToBits
  deriving DecidableEq, Hashable

/-- The text of a conversion, with its signedness where it has one. -/
def CastOp.text : CastOp → String
  | .zeroExtend => "ZeroExtend"
  | .signExtend => "SignExtend"
  | .truncate => "Truncate"
  | .boolToBits => "BoolToBits"
  | .intToFloat signed => Text.record "IntToFloat" [("signed", toString signed)]
  | .floatToInt signed => Text.record "FloatToInt" [("signed", toString signed)]
  | .floatToFloat => "FloatToFloat"
  | .bitsToFloat => "BitsToFloat"
  | .floatToBits => "FloatToBits"

/-- The conversion with this name; `signed` is for the two that have a signedness. -/
def CastOp.named? (name : String) (signed : Bool) : Option CastOp :=
  match name with
  | "ZeroExtend" => some .zeroExtend
  | "SignExtend" => some .signExtend
  | "Truncate" => some .truncate
  | "BoolToBits" => some .boolToBits
  | "IntToFloat" => some (.intToFloat signed)
  | "FloatToInt" => some (.floatToInt signed)
  | "FloatToFloat" => some .floatToFloat
  | "BitsToFloat" => some .bitsToFloat
  | "FloatToBits" => some .floatToBits
  | _ => none

/-- The operation that a node performs. -/
inductive Op where
  | integer (value : BitVec 128)
  /-- The bits of a float or, in a node of width 64, of a double. -/
  | float (bits : UInt64)
  | bool (value : Bool)
  | nullPointer
  /-- The symbolic input byte at an offset. -/
  | input (offset : UInt64)
  | unary (op : UnaryOp)
  | binary (op : BinaryOp)
  | compare (predicate : Predicate)
  | cast (op : CastOp)
  /-- The bits from `first` down to `last`, both included. -/
  | extract (first last : UInt32)
  | concat
  | ite
  /-- A read of so many bytes through a symbolic address. -/
  | memoryRead (bytes : UInt32)
  deriving DecidableEq, Hashable

namespace Op

/-- The number of children that a node with this operation has. -/
def arity : Op → Nat
  | .integer _ | .float _ | .bool _ | .nullPointer | .input _ => 0
  | .unary _ | .cast _ | .extract _ _ | .memoryRead _ => 1
  | .binary _ | .compare _ | .concat => 2
  | .ite => 3

/-- Whether a node with this operation has no children. -/
def isLeaf (op : Op) : Bool := op.arity == 0

/-- The text of an operation in messages and log records. -/
def text : Op → String
  | .integer value => Text.applied "Integer" [toString value.toNat]
  | .float bits => Text.applied "Float" [toString bits]
  | .bool value => Text.applied "Bool" [toString value]
  | .nullPointer => "NullPointer"
  | .input offset => Text.record "Input" [("offset", toString offset)]
  | .unary op => Text.applied "Unary" [op.text]
  | .binary op => Text.applied "Binary" [op.text]
  | .compare predicate => Text.applied "Compare" [predicate.text]
  | .cast op => Text.applied "Cast" [op.text]
  | .extract first last =>
    Text.record "Extract" [("first", toString first), ("last", toString last)]
  | .concat => "Concat"
  | .ite => "Ite"
  | .memoryRead bytes => Text.record "MemoryRead" [("bytes", toString bytes)]

end Op

end ExprHeap
