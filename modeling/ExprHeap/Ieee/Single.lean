import ExprHeap.Ieee.Format

/-!
# Single-precision numbers

A `Single` is a 32-bit pattern.  The heap needs few operations on them: taking a count as a
number, multiplying two, cutting a number down to a count, and narrowing a double.  Each rounds
once, to nearest with ties to even.
-/

namespace ExprHeap.Ieee

/-- A single-precision number, as its bits. -/
structure Single where
  bits : UInt32
  deriving DecidableEq, Inhabited

namespace Single

/-- A single from a sign and a magnitude. -/
def ofMagnitude (negative : Bool) (magnitude : Nat) : Single :=
  ⟨UInt32.ofNat (single.signed negative magnitude)⟩

/-- What a single denotes. -/
def datum (x : Single) : Datum :=
  single.decode x.bits.toNat

/-- The quiet pattern for results that are not numbers. -/
def notANumber : Single := ⟨0x7FC00000⟩

/-- The single nearest to `mantissa · 2 ^ exponent`. -/
def ofScaled (negative : Bool) (mantissa : Nat) (exponent : Int) : Single :=
  if mantissa = 0 then ofMagnitude negative 0
  else
    let (up, down) := powerOfTwo exponent
    ofMagnitude negative (single.round (mantissa * up) down)

/-- The single nearest to a count. -/
def ofCount (count : Nat) : Single :=
  ofScaled false count 0

/-- The rounded product. -/
def mul (x y : Single) : Single :=
  match x.datum, y.datum with
  | .finite xNegative xMantissa xExponent, .finite yNegative yMantissa yExponent =>
    ofScaled (xNegative != yNegative) (xMantissa * yMantissa) (xExponent + yExponent)
  | .infinite xNegative, .infinite yNegative =>
    ofMagnitude (xNegative != yNegative) single.infinity
  | .infinite xNegative, .finite yNegative yMantissa _ =>
    if yMantissa = 0 then notANumber
    else ofMagnitude (xNegative != yNegative) single.infinity
  | .finite xNegative xMantissa _, .infinite yNegative =>
    if xMantissa = 0 then notANumber
    else ofMagnitude (xNegative != yNegative) single.infinity
  | _, _ => notANumber

/-- Cuts a number down to a count below `bound`: the fraction goes, what is too large becomes
the largest count, and what is negative or no number becomes zero. -/
def toCount (bound : Nat) (x : Single) : Nat :=
  match x.datum with
  | .finite true _ _ => 0
  | .finite false mantissa exponent =>
    let (up, down) := powerOfTwo exponent
    min (mantissa * up / down) (bound - 1)
  | .infinite false => bound - 1
  | .infinite true => 0
  | .notANumber => 0

/-- The single nearest to a double.  A pattern that is no number keeps its sign and the leading
bits of its payload, and becomes quiet. -/
def ofDouble (bits : UInt64) : Single :=
  let negative := double.isNegative bits.toNat
  match double.decode bits.toNat with
  | .finite _ mantissa exponent => ofScaled negative mantissa exponent
  | .infinite _ => ofMagnitude negative single.infinity
  | .notANumber =>
    let payload := (double.magnitude bits.toNat % double.leading) >>> 29
    ofMagnitude negative (single.infinity + 0x400000 + payload % 0x400000)

end Single

end ExprHeap.Ieee
