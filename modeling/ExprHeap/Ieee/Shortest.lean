import ExprHeap.Ieee.Single

/-!
# The shortest decimal text of a single

A finite single is written with the fewest digits that read back as the same single, and of
those with the digits nearest to it, in positional notation whatever its size.

The decimals that read back are those between the midpoints to the neighbouring singles, the
midpoints included when the significand is even.  For each power of ten, from above the largest
single down, the two multiples next to the number are tried; the first power with a hit gives
the fewest digits.
-/

namespace ExprHeap.Ieee

/-- A positive number and the ends of its rounding interval, as integers over one scale:
`value`, `low` and `high` count quarters of `2 ^ exponent`. -/
structure RoundingInterval where
  low : Nat
  value : Nat
  high : Nat
  /-- Whether the ends themselves round to the number. -/
  closed : Bool
  exponent : Int

namespace RoundingInterval

/-- The interval of `mantissa · 2 ^ exponent`.  Below a power of two the neighbour is only half
as far, unless the number is at the least exponent. -/
def ofScaled (format : Format) (mantissa : Nat) (exponent : Int) : RoundingInterval :=
  let narrow := mantissa = format.leading ∧ format.leastExponent < exponent
  { low := 4 * mantissa - (if narrow then 1 else 2)
    value := 4 * mantissa
    high := 4 * mantissa + 2
    closed := mantissa % 2 == 0
    exponent := exponent - 2 }

/-- The multiple of `10 ^ power` in the interval that is nearest to the number, if there is one;
of two at the same distance the larger. -/
def multiple? (interval : RoundingInterval) (power : Int) : Option Nat :=
  let (up, down) := powerOfTwo interval.exponent
  let scale := up * Nat.pow 10 (-power).toNat
  let unit := down * Nat.pow 10 power.toNat
  let low := interval.low * scale
  let value := interval.value * scale
  let high := interval.high * scale
  let inside := fun n : Nat =>
    if interval.closed then low ≤ n * unit && n * unit ≤ high
    else low < n * unit && n * unit < high
  let below := value / unit
  let above := below + 1
  match inside below && 0 < below, inside above with
  | true, true => some (if value - below * unit < above * unit - value then below else above)
  | true, false => some below
  | false, true => some above
  | false, false => none

/-- Tries `power`, `power - 1` and so on, at most `tries` of them. -/
def firstMultiple (interval : RoundingInterval) : Nat → Int → Nat × Int
  | 0, power => (0, power)
  | tries + 1, power =>
    match interval.multiple? power with
    | some n => (n, power)
    | none => interval.firstMultiple tries (power - 1)

end RoundingInterval

/-- `n · 10 ^ power` in positional notation. -/
def positional (n : Nat) (power : Int) : String :=
  let digits := Nat.toDigits 10 n
  if 0 ≤ power then String.ofList (digits ++ List.replicate power.toNat '0')
  else
    let places := (-power).toNat
    let padded := List.replicate (places + 1 - digits.length) '0' ++ digits
    let whole := padded.length - places
    String.ofList (padded.take whole ++ '.' :: padded.drop whole)

/-- The text of a single.  All powers of ten from `10 ^ 39` to `10 ^ (-50)` are tried, and every
interval holds a multiple of the last. -/
def Single.text (x : Single) : String :=
  let sign := fun negative : Bool => if negative then "-" else ""
  match x.datum with
  | .notANumber => "NaN"
  | .infinite negative => sign negative ++ "inf"
  | .finite negative mantissa exponent =>
    if mantissa = 0 then sign negative ++ "0"
    else
      let (n, power) := (RoundingInterval.ofScaled single mantissa exponent).firstMultiple 90 39
      sign negative ++ positional n power

end ExprHeap.Ieee
