/-! White space and what is cut by it: trimming, words, lines. Texts are lists of characters here,
so that every cut is a statement about `takeWhile`, `dropWhile` and append. -/

namespace PromptPack.Text

/-- The white-space characters of Unicode and the four information separators. -/
def isBlank (c : Char) : Bool :=
  let n := c.toNat
  (9 ≤ n && n ≤ 13) || (28 ≤ n && n ≤ 32) || n == 0x85 || n == 0xA0 || n == 0x1680 ||
    (0x2000 ≤ n && n ≤ 0x200A) || n == 0x2028 || n == 0x2029 || n == 0x202F || n == 0x205F ||
    n == 0x3000

def trimStart (cs : List Char) : List Char := cs.dropWhile isBlank

def dropEndWhile (p : Char → Bool) (cs : List Char) : List Char :=
  (cs.reverse.dropWhile p).reverse

def trimEnd (cs : List Char) : List Char := dropEndWhile isBlank cs

def trim (cs : List Char) : List Char := trimEnd (trimStart cs)

def splitStep (separator c : Char) : List (List Char) → List (List Char)
  | [] => [[c]]
  | part :: parts => if c = separator then [] :: part :: parts else (c :: part) :: parts

/-- The parts between separators: one more than there are separators. -/
def splitOn (separator : Char) (cs : List Char) : List (List Char) :=
  cs.foldr (splitStep separator) [[]]

def lines (cs : List Char) : List (List Char) := splitOn '\n' cs

def unlines (parts : List (List Char)) : List Char := ['\n'].intercalate parts

theorem splitOn_nil (separator : Char) : splitOn separator [] = [[]] := rfl

theorem splitOn_cons (separator c : Char) (cs : List Char) :
    splitOn separator (c :: cs) = splitStep separator c (splitOn separator cs) := rfl

theorem splitOn_ne_nil (separator : Char) (cs : List Char) : splitOn separator cs ≠ [] := by
  induction cs with
  | nil => simp [splitOn_nil]
  | cons c cs ih =>
    rw [splitOn_cons]
    cases h : splitOn separator cs with
    | nil => exact absurd h ih
    | cons part parts =>
      simp only [splitStep]
      split <;> simp

def wordStep (c : Char) (parts : List Char × List (List Char)) : List Char × List (List Char) :=
  if isBlank c then ([], if parts.1.isEmpty then parts.2 else parts.1 :: parts.2)
  else (c :: parts.1, parts.2)

/-- The maximal runs of characters that are not white space. -/
def words (cs : List Char) : List (List Char) :=
  let parts := cs.foldr wordStep ([], [])
  if parts.1.isEmpty then parts.2 else parts.1 :: parts.2

end PromptPack.Text
