import PromptPack.Budget.Ceiling
import PromptPack.Numeric.Decimal
import PromptPack.Numeric.IntegerText

/-! Compact text of token counts: whole below a thousand, then thousands and millions with one
place. -/

namespace PromptPack.Budget

def inUnits (tokens : Number) (unit : Int) (mark : String) : Except Fault String :=
  match tokens.quotient? (.int unit) with
  | none => .error .outOfRange
  | some x => .ok (Decimal.fixedPlaces 1 x ++ mark)

def wholeTokens : Number → Except Fault Int
  | .int n => .ok n
  | .float x => integerPart x Binary64.truncate?

def tokenText (tokens : Number) : Except Fault String :=
  if (Number.int 1000000).le tokens then inUnits tokens 1000000 "M"
  else if (Number.int 1000).le tokens then inUnits tokens 1000 "k"
  else do IntegerText.write (← wholeTokens tokens)

end PromptPack.Budget
