import PromptPack.Budget.PackFile
import PromptPack.Budget.TokenText

/-! Files above the ceiling, and the warning that names the first of them. -/

namespace PromptPack

structure OversizedFile where
  path : String
  tokenCount : Int
deriving DecidableEq, Repr

namespace Budget

def findOversized (files : List PackFile) (ceiling : Int) : List OversizedFile :=
  if ceiling ≤ 0 then []
  else
    (files.filter fun file => ceiling < file.effectiveTokens).map fun file =>
      ⟨file.path, file.effectiveTokens⟩

def maxExamples : Nat := 3

def exampleText (file : OversizedFile) : Except Fault String := do
  let tokens ← tokenText (.int file.tokenCount)
  return s!"{file.path} (~{tokens})"

def oversizedWarning (oversized : List OversizedFile) (ceiling : Int) :
    Except Fault (Option String) :=
  if oversized.isEmpty then .ok none
  else do
    let named ← (oversized.take maxExamples).mapM exampleText
    let examples := ", ".intercalate named
    let extra := oversized.length - maxExamples
    let more := if 0 < extra then s!" +{extra} more" else ""
    let limit ← tokenText (.int ceiling)
    return some (s!"Some files exceed the advisory per-file limit of {limit} tokens. " ++
      "Large single files can reduce LLM reliability and increase hallucination risk. " ++
      "Consider selecting fewer files. " ++
      s!"Oversized: {examples}{more}.")

end Budget

end PromptPack
