/-!
# The text of constructors and records

Values appear in messages in one fixed notation: a constructor without fields is its name,
one with positional fields is `Name(a, b)`, one with named fields is `Name { a: 1, b: 2 }`,
and a list is `[a, b]`.  The functions here take the fields already written.
-/

namespace ExprHeap.Text

/-- A name applied to positional fields. -/
def applied (name : String) (fields : List String) : String :=
  name ++ "(" ++ ", ".intercalate fields ++ ")"

/-- A name with named fields. -/
def record (name : String) (fields : List (String × String)) : String :=
  name ++ " \x7b " ++ ", ".intercalate (fields.map fun field => field.1 ++ ": " ++ field.2) ++
    " \x7d"

/-- A list of written elements. -/
def list (elements : List String) : String :=
  "[" ++ ", ".intercalate elements ++ "]"

/-- A record with one field to a line, each line closed by a comma. -/
def recordLines (name : String) (fields : List (String × String)) : List String :=
  (name ++ " \x7b") :: fields.map (fun field => "    " ++ field.1 ++ ": " ++ field.2 ++ ",") ++
    ["\x7d"]

end ExprHeap.Text
