/-!
# Numerals

Writing words in hexadecimal, and reading unsigned decimal numerals.  A numeral that is read
is a nonempty run of the ten ASCII digits, with at most one plus sign in front.
-/

namespace ExprHeap.Text

/-- Hexadecimal digits in lower case after `0x`, without leading zeros. -/
def hex (n : Nat) : String :=
  "0x" ++ String.ofList (Nat.toDigits 16 n)

/-- The value of a decimal digit. -/
def digitValue (c : Char) : Nat :=
  c.toNat - '0'.toNat

/-- The number that a run of decimal digits writes, read after the digits of `start`. -/
def digitsValue (start : Nat) (digits : List Char) : Nat :=
  digits.foldl (fun value c => 10 * value + digitValue c) start

/-- Reads an unsigned numeral below `bound`. -/
def natural? (bound : Nat) (text : List Char) : Option Nat :=
  let digits := match text with
    | '+' :: rest => rest
    | _ => text
  if digits.isEmpty || !digits.all Char.isDigit then none
  else
    let value := digitsValue 0 digits
    if value < bound then some value else none

end ExprHeap.Text
