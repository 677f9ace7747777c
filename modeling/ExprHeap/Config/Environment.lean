import ExprHeap.Config.Basic
import ExprHeap.Error
import ExprHeap.Ieee.Numeral
import ExprHeap.Ieee.Shortest
import ExprHeap.Text.Blank

/-!
# Configuration from the environment

Each setting has a variable.  A variable that is set must hold a numeral, blanks around it
aside, and the growth ratio must be finite and at least one.  The first setting whose variable
does not is reported: with its text, or, when the text is a number that is no growth ratio, with
that number.
-/

namespace ExprHeap

/-- Whether a single is finite and at least one.  The patterns from that of one up to that of
infinity are the singles from one up, in order. -/
def Ieee.Single.isGrowthRatio (x : Ieee.Single) : Bool :=
  0x3F800000 ≤ x.bits.toNat && x.bits.toNat < Ieee.single.infinity

namespace Config

/-- The value of a setting, if its variable is set. -/
def readSetting {α : Type} (lookup : Setting → Option String) (read? : List Char → Option α)
    (setting : Setting) : Except HeapError (Option α) :=
  match lookup setting with
  | none => .ok none
  | some text =>
    match read? (Text.trim text.toList) with
    | some value => .ok (some value)
    | none => .error (.invalidConfig setting text)

/-- The value of a setting that is a count of at most 64 bits. -/
def readCount (lookup : Setting → Option String) (setting : Setting) :
    Except HeapError (Option Nat) :=
  readSetting lookup (Text.natural? UInt64.size) setting

/-- The growth ratio. -/
def readGrowthRatio (lookup : Setting → Option String) :
    Except HeapError (Option Ieee.Single) :=
  match readSetting lookup Ieee.Single.read? .growthRatio with
  | .ok (some ratio) =>
    if ratio.isGrowthRatio then .ok (some ratio)
    else .error (.invalidConfig .growthRatio ratio.text)
  | result => result

/-- The defaults, with the settings whose variables are set in their place. -/
def ofLookup (lookup : Setting → Option String) : Except HeapError Config := do
  let collectThreshold ← readCount lookup .collectThreshold
  let growthRatio ← readGrowthRatio lookup
  let maxNodes ← readCount lookup .maxNodes
  let scanChunk ← readCount lookup .scanChunk
  let reclaimBatch ← readCount lookup .reclaimBatch
  return {
    collectThreshold := collectThreshold.getD default.collectThreshold
    growthRatio := growthRatio.getD default.growthRatio
    maxNodes := (maxNodes.map (min Handle.indexBound)).getD default.maxNodes
    scanChunk := (scanChunk.map (max 1)).getD default.scanChunk
    reclaimBatch := (reclaimBatch.map (max 1)).getD default.reclaimBatch }

end Config

end ExprHeap
