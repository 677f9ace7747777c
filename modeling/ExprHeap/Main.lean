import ExprHeap.ShadowStack

/-!
# The command line

Runs the shadow-stack program in the environment of the process, prints its lines, and puts what
it complains of on the error stream.
-/

open ExprHeap in
/-- Prints what the program prints and ends with its status. -/
def main : IO UInt32 := do
  let values ← Setting.all.mapM fun setting => do
    return (setting, ← IO.getEnv setting.variableName)
  let outcome := ShadowStack.program fun setting =>
    (values.find? (·.1 = setting)).bind (·.2)
  for line in outcome.lines do
    IO.println line
  if let some complaint := outcome.complaint then
    IO.eprintln complaint
  return UInt32.ofNat outcome.status
