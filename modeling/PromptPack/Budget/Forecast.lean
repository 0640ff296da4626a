import PromptPack.Budget.Oversized
import PromptPack.Table

/-! How many parts each file above the ceiling will be split into, from its token count alone. -/

namespace PromptPack.Budget

/-- The quotient is rounded to a double before it is rounded up; no fewer than two parts. -/
def partCount (tokens ceiling : Int) : Except Fault Int :=
  match (Binary64.quotient? tokens ceiling).bind Binary64.ceil? with
  | none => .error .outOfRange
  | some n => .ok (max 2 n)

def forecast (files : List PackFile) (ceiling : Int) : Except Fault (Table String Int) :=
  if ceiling ≤ 0 then .ok []
  else
    files.foldlM (fun counts file =>
      if ceiling < file.effectiveTokens then do
        return counts.set file.path (← partCount file.effectiveTokens ceiling)
      else pure counts) []

end PromptPack.Budget
