import PromptPack.Fault
import PromptPack.Numeric.Number

/-! The advisory ceiling: how many tokens one file may have. It is configured, or a share of the
model's context window within fixed bounds. -/

namespace PromptPack.Budget

def minAdvisory : Int := 4000
def maxAdvisory : Int := 20000

/-- The share of the context window: the double nearest to 0.08. -/
def windowShare : Binary64 := .ofRatio false 8 100

def integerPart (x : Binary64) (part : Binary64 → Option Int) : Except Fault Int :=
  match x, part x with
  | _, some n => .ok n
  | .nan, none => .error .badValue
  | _, none => .error .outOfRange

/-- To the nearest integer, a half up. The half is added as a double. -/
def roundHalfUp (x : Binary64) : Except Fault Int := integerPart (x.add .half) Binary64.floor?

def toDouble (n : Number) : Except Fault Binary64 :=
  match n.toBinary64? with
  | some x => .ok x
  | none => .error .outOfRange

def deriveCeiling (contextWindow : Number) : Except Fault Int := do
  let window ← toDouble contextWindow
  let share ← roundHalfUp (window.mul windowShare)
  return min maxAdvisory (max minAdvisory share)

/-- A positive configured ceiling wins, rounded and at least one. -/
def resolveCeiling (configured : Option Number) (contextWindow : Number) : Except Fault Int :=
  match configured with
  | none => deriveCeiling contextWindow
  | some wanted =>
    if wanted.le (.int 0) then deriveCeiling contextWindow
    else do
      let rounded ← roundHalfUp (← toDouble wanted)
      return max 1 rounded

end PromptPack.Budget
