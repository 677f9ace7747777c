import ExprHeap.Text.Printable

/-!
# Quoted texts

A quoted text stands between double quotes.  A backslash goes before a double quote and a
backslash; the line feed, carriage return, tab and null characters have their letters; and a
character that would not show on its own, or that would combine with the one before it, is
written as `\u` with its number in hexadecimal between braces.
-/

namespace ExprHeap.Text

/-- One character inside quotes. -/
def quotedChar (c : Char) : String :=
  if c = '\x00' then "\\0"
  else if c = '\t' then "\\t"
  else if c = '\r' then "\\r"
  else if c = '\n' then "\\n"
  else if c = '\\' then "\\\\"
  else if c = '"' then "\\\""
  else if extendsGrapheme c || !isPrintable c then
    "\\u\x7b" ++ String.ofList (Nat.toDigits 16 c.toNat) ++ "\x7d"
  else c.toString

/-- A text between double quotes. -/
def quoted (text : String) : String :=
  "\"" ++ String.join (text.toList.map quotedChar) ++ "\""

end ExprHeap.Text
