import PromptPack.Numeric.Binary64
import PromptPack.Budget.PackFile

/-! Splitting a text into parts of one budget each. A window holds the budget's characters. A part
ends behind the last blank line that starts in the later part of its window, else behind the last
line break there, else where the window ends. The parts always join to the whole. -/

namespace PromptPack.Budget

/-- How far into a window a break must lie: the double nearest to 0.35. -/
def breakShare : Binary64 := .ofRatio false 35 100

def minBreakOffset (window : Nat) : Nat :=
  (((Binary64.ofInt window).mul breakShare).truncate?.getD 0).toNat

def isParagraphBreak : List Char → Bool
  | '\n' :: '\n' :: _ => true
  | _ => false

def isLineBreak : List Char → Bool
  | '\n' :: _ => true
  | _ => false

/-- The last offset from `low` to `high` at which a break starts; `i` is the offset reached. -/
def lastBreak? (isBreak : List Char → Bool) (low high i : Nat) (found : Option Nat) :
    List Char → Option Nat
  | [] => found
  | c :: cs =>
    if high < i then found
    else
      lastBreak? isBreak low high (i + 1)
        (if low ≤ i && isBreak (c :: cs) then some i else found) cs

def cutLength (window low : Nat) (cs : List Char) : Nat :=
  match lastBreak? isParagraphBreak low window 0 none cs with
  | some i => i + 2
  | none =>
    match lastBreak? isLineBreak low window 0 none cs with
    | some i => i + 1
    | none => max 1 window

theorem cutLength_pos (window low : Nat) (cs : List Char) : 0 < cutLength window low cs := by
  unfold cutLength
  split
  · omega
  · split <;> omega

def splitOnto (window low : Nat) (parts : List (List Char)) (cs : List Char) :
    List (List Char) :=
  if _h : cs.drop window = [] then (if cs.isEmpty then parts else cs :: parts).reverse
  else
    let length := cutLength window low cs
    splitOnto window low (cs.take length :: parts) (cs.drop length)
termination_by cs.length
decreasing_by
  have positive := cutLength_pos window low cs
  have nonempty : cs ≠ [] := by
    rintro rfl
    simp_all
  have := List.length_pos_iff.2 nonempty
  simp only [List.length_drop]
  omega

def splitChars (window : Nat) (cs : List Char) : List (List Char) :=
  splitOnto window (minBreakOffset window) [] cs

/-- The parts of a text under a ceiling of tokens; a text that fits is its own only part. -/
def splitByBudget (content : String) (ceiling : Int) : List String :=
  if ceiling ≤ 0 then [content]
  else
    let window := ceiling.toNat * charsPerToken
    if content.length ≤ window then [content]
    else (splitChars window content.toList).map String.ofList

end PromptPack.Budget
