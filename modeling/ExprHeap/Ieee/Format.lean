/-!
# Binary floating-point formats

A format fixes how many bits a significand has and how small its unit can get.  Every finite
number of a format is `mantissa · 2 ^ exponent` with a sign, every bit pattern of the format is
a sign bit above a magnitude, and magnitudes are ordered as the numbers that they denote: the
finite ones, then infinity, then the patterns that are not numbers.

* `Format.decode` reads a pattern.
* `Format.round` goes back: the magnitude of the number nearest to a positive quotient, where
  a tie goes to the even significand and a quotient past the largest number to infinity.
-/

namespace ExprHeap.Ieee

/-- The parameters of a binary format. -/
structure Format where
  /-- Bits of a significand, the leading one included. -/
  precision : Nat
  /-- The exponent of the smallest positive number, a power of two. -/
  leastExponent : Int
  /-- The magnitude that stands for infinity. -/
  infinity : Nat
  /-- The value of the sign bit. -/
  signBit : Nat
  deriving DecidableEq

/-- Thirty-two bits: 24 of significand. -/
def single : Format := ⟨24, -149, 0x7F800000, 0x80000000⟩

/-- Sixty-four bits: 53 of significand. -/
def double : Format := ⟨53, -1074, 0x7FF0000000000000, 0x8000000000000000⟩

/-- What a bit pattern denotes.  A finite value is `mantissa · 2 ^ exponent`. -/
inductive Datum where
  | finite (negative : Bool) (mantissa : Nat) (exponent : Int)
  | infinite (negative : Bool)
  | notANumber
  deriving DecidableEq

/-- `2 ^ exponent` as a numerator over a denominator. -/
def powerOfTwo (exponent : Int) : Nat × Nat :=
  (1 <<< exponent.toNat, 1 <<< (-exponent).toNat)

/-- The integer nearest to `numerator / denominator`; a tie goes to the even one. -/
def nearestEven (numerator denominator : Nat) : Nat :=
  let quotient := numerator / denominator
  let remainder := numerator % denominator
  if denominator < 2 * remainder || (2 * remainder == denominator && quotient % 2 == 1) then
    quotient + 1
  else quotient

namespace Format

/-- The smallest significand of a normal number. -/
def leading (format : Format) : Nat := 1 <<< (format.precision - 1)

/-- Whether a bit pattern has its sign bit set. -/
def isNegative (format : Format) (bits : Nat) : Bool :=
  format.signBit ≤ bits

/-- The bit pattern without its sign. -/
def magnitude (format : Format) (bits : Nat) : Nat :=
  bits % format.signBit

/-- Puts a sign on a magnitude. -/
def signed (format : Format) (negative : Bool) (magnitude : Nat) : Nat :=
  if negative then format.signBit + magnitude else magnitude

/-- What a bit pattern denotes.  The patterns below `leading` are the subnormal numbers. -/
def decode (format : Format) (bits : Nat) : Datum :=
  let negative := format.isNegative bits
  let magnitude := format.magnitude bits
  if format.infinity < magnitude then .notANumber
  else if magnitude = format.infinity then .infinite negative
  else
    let biased := magnitude / format.leading
    let fraction := magnitude % format.leading
    if biased = 0 then .finite negative fraction format.leastExponent
    else .finite negative (format.leading + fraction) (format.leastExponent + (biased - 1 : Nat))

/-- The exponent of the unit in which `numerator / denominator` is rounded: the one that gives
the quotient as many bits as the format holds, but never below the least. -/
def unitExponent (format : Format) (numerator denominator : Nat) : Int :=
  let estimate : Int :=
    (Nat.log2 numerator : Int) - (Nat.log2 denominator : Int) - (format.precision - 1 : Nat)
  let (up, down) := powerOfTwo estimate
  let exponent := if numerator * down < denominator * up * format.leading then estimate - 1
    else estimate
  max exponent format.leastExponent

/-- The magnitude of the number nearest to `numerator / denominator`, for two positive
integers.  A significand that rounding carries to the next power of two moves on to the next
exponent by itself, because magnitudes are consecutive integers. -/
def round (format : Format) (numerator denominator : Nat) : Nat :=
  let exponent := format.unitExponent numerator denominator
  let (up, down) := powerOfTwo exponent
  let significand := nearestEven (numerator * down) (denominator * up)
  let magnitude := (exponent - format.leastExponent).toNat * format.leading + significand
  min magnitude format.infinity

end Format

end ExprHeap.Ieee
