import ExprHeap.Ieee.Single
import ExprHeap.Text.Numeral

/-!
# Decimal numerals for singles

A numeral is an optional sign, then either one of the words `inf`, `infinity` and `nan` in any
case, or decimal digits with at most one point among or around them, at least one digit, and an
optional exponent: `e` or `E`, an optional sign and at least one digit.  It is read as the
nearest single.
-/

namespace ExprHeap.Ieee

/-- `coefficient · 10 ^ exponent`. -/
structure Decimal where
  coefficient : Nat
  exponent : Int
  deriving DecidableEq

namespace Decimal

/-- A leading sign, and whether it is a minus. -/
def splitSign : List Char → Bool × List Char
  | '-' :: rest => (true, rest)
  | '+' :: rest => (false, rest)
  | text => (false, text)

/-- The exponent part of a numeral, which may be absent. -/
def exponent? : List Char → Option Int
  | [] => some 0
  | c :: rest =>
    if c = 'e' ∨ c = 'E' then
      let (negative, digits) := splitSign rest
      if digits.isEmpty || !digits.all Char.isDigit then none
      else
        let value : Int := Text.digitsValue 0 digits
        some (if negative then -value else value)
    else none

/-- Reads a numeral without its sign. -/
def read? (text : List Char) : Option Decimal :=
  let whole := text.takeWhile Char.isDigit
  let (fraction, tail) := match text.dropWhile Char.isDigit with
    | '.' :: rest => (rest.takeWhile Char.isDigit, rest.dropWhile Char.isDigit)
    | rest => ([], rest)
  if whole.isEmpty && fraction.isEmpty then none
  else (exponent? tail).map fun exponent =>
    { coefficient := Text.digitsValue (Text.digitsValue 0 whole) fraction
      exponent := exponent - fraction.length }

/-- An exponent `e` such that the number is at least `10 ^ (e - 1)` and below `10 ^ e`, when
the coefficient is positive. -/
def magnitudeExponent (decimal : Decimal) : Int :=
  (Nat.toDigits 10 decimal.coefficient).length + decimal.exponent

/-- The magnitude of the nearest single.  Numbers from `10 ^ 40` are past the largest single and
those below `10 ^ (-60)` far below half the smallest; neither is worked out. -/
def singleMagnitude (decimal : Decimal) : Nat :=
  if decimal.coefficient = 0 || decimal.magnitudeExponent < -60 then 0
  else if 40 < decimal.magnitudeExponent then single.infinity
  else single.round (decimal.coefficient * Nat.pow 10 decimal.exponent.toNat)
    (Nat.pow 10 (-decimal.exponent).toNat)

end Decimal

/-- Reads a numeral as the nearest single. -/
def Single.read? (text : List Char) : Option Single :=
  let (negative, rest) := Decimal.splitSign text
  let name := rest.map Char.toLower
  if name = "inf".toList ∨ name = "infinity".toList then
    some (.ofMagnitude negative single.infinity)
  else if name = "nan".toList then some .notANumber
  else (Decimal.read? rest).map fun decimal => .ofMagnitude negative decimal.singleMagnitude

end ExprHeap.Ieee
