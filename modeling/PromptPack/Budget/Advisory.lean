import PromptPack.Fault
import PromptPack.Numeric.Number

/-! How the average pack compares with the advisory ceiling. -/

namespace PromptPack

inductive AdvisoryLevel where
  | ok | warn | danger
deriving DecidableEq, Repr

structure Advisory where
  averageTokens : Binary64
  ceiling : Number
  utilization : Binary64
  level : AdvisoryLevel
deriving DecidableEq, Repr

namespace AdvisoryLevel

def message : AdvisoryLevel → String
  | .ok => "Within advisory: average tokens per pack are under the recommended per-file budget."
  | .warn => "Approaching advisory limit: average tokens per pack are close to the recommended " ++
      "per-file budget."
  | .danger => "Advisory exceeded: average tokens per pack are above the recommended per-file " ++
      "budget. Increase packs or select fewer files."

/-- Where the warning starts: the double nearest to 0.85. -/
def warnShare : Binary64 := .ofRatio false 85 100

def ofUtilization (utilization : Binary64) : AdvisoryLevel :=
  if (Number.int 1).le (.float utilization) then .danger
  else if (Number.float warnShare).le (.float utilization) then .warn
  else .ok

end AdvisoryLevel

namespace Advisory

def message (advisory : Advisory) : String := advisory.level.message

/-- The average and the utilization are each one rounded quotient. -/
def ofPacks (totalTokens packs ceiling : Number) : Except Fault Advisory :=
  let packs := (Number.int 1).max packs
  let ceiling := (Number.int 1).max ceiling
  match totalTokens.quotient? packs with
  | none => .error .outOfRange
  | some average =>
    match (Number.float average).quotient? ceiling with
    | none => .error .outOfRange
    | some utilization => .ok ⟨average, ceiling, utilization, .ofUtilization utilization⟩

end Advisory

end PromptPack
