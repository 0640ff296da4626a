import PromptPack.Budget.Ceiling
import PromptPack.Numeric.Total
import PromptPack.Table

/-! Attributing the tokens of packs to their files: a known count stays, and what is left of a pack's
estimate is shared evenly among its other files. -/

namespace PromptPack.Packing

structure PackEstimate where
  estimatedTokens : Int
  filePaths : List String
deriving DecidableEq, Repr

/-- An even share, to the nearest integer; the quotient and the sum are rounded as doubles. -/
def share (remaining : Int) (files : Nat) : Except Fault Int :=
  match Binary64.quotient? remaining files with
  | none => .error .outOfRange
  | some x => Budget.integerPart (x.add .half) Binary64.truncate?

def setAll {ν : Type} (counts : Table String ν) (entries : List (String × ν)) : Table String ν :=
  entries.foldl (fun counts (path, value) => counts.set path value) counts

def attributePack (known : Table String Int) (counts : Table String Int) (pack : PackEstimate) :
    Except Fault (Table String Int) := do
  let found := pack.filePaths.filterMap fun path => (known.get? path).map fun n => (path, n)
  let others := pack.filePaths.filter fun path => !known.has path
  let counts := setAll counts found
  if others.isEmpty then return counts
  else
    let remaining := max 0 (pack.estimatedTokens - total (found.map (·.2)))
    let each ← share remaining others.length
    return setAll counts (others.map fun path => (path, each))

def tokensByFile (known : Table String Int) (packs : List PackEstimate) :
    Except Fault (Table String Int) :=
  packs.foldlM (attributePack known) []

end PromptPack.Packing
