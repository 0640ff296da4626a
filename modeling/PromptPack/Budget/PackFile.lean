/-! Files as the packing step sees them, and how many tokens one counts for. -/

namespace PromptPack

structure PackFile where
  path : String
  content : String
  tokenCount : Option Int := none
deriving DecidableEq, Repr

namespace Budget

def charsPerToken : Nat := 4

def charEstimate (content : String) : Nat := (content.length + (charsPerToken - 1)) / charsPerToken

/-- Nothing for the empty text, and at least one token for any other. -/
def estimateTokens (content : String) : Nat :=
  if content.isEmpty then 0 else max (charEstimate content) 1

theorem estimateTokens_eq (content : String) : estimateTokens content = charEstimate content := by
  unfold estimateTokens charEstimate charsPerToken
  split
  · next empty =>
    rw [String.isEmpty_iff, ← String.length_eq_zero_iff] at empty
    omega
  · next nonempty =>
    rw [String.isEmpty_iff, ← String.length_eq_zero_iff] at nonempty
    omega

end Budget

/-- A known count wins over the estimate; a negative one counts as zero. -/
def PackFile.effectiveTokens (file : PackFile) : Int :=
  match file.tokenCount with
  | some count => max 0 count
  | none => Budget.estimateTokens file.content

end PromptPack
