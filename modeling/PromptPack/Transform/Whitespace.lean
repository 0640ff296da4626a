import PromptPack.Text.Blank
import PromptPack.Text.Scan
import PromptPack.Text.Search

/-! Reducing white space: at most one blank line in a row, nothing blank at the end of a line, and
nothing blank around the text. -/

namespace PromptPack.Transform

open Text

def breakStep : ScanStep := fun c cs =>
  match c, cs with
  | '\n', '\n' :: '\n' :: rest =>
    (['\n', '\n'], ⟨rest.dropWhile (· == '\n'), by
      have := (List.dropWhile_sublist (l := rest) (· == '\n')).length_le
      simp only [List.length_cons]
      omega⟩)
  | c, cs => copy c cs

def collapseBreaks (cs : List Char) : List Char := scan breakStep cs

def reduceWhitespace (cs : List Char) : List Char :=
  trim (unlines ((lines (collapseBreaks cs)).map trimEnd))

end PromptPack.Transform
