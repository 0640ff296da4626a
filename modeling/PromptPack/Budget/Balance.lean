import PromptPack.Budget.Oversized
import PromptPack.Budget.PartPath
import PromptPack.Budget.Split

/-! Balancing a list of files: each file that bears the path of an oversized one is replaced, in its
place, by its parts. A file whose text makes one part stays as it is. -/

namespace PromptPack

structure Balance where
  files : List PackFile
  oversized : List OversizedFile := []
  warnings : List String := []
  ceiling : Int
  splitFileCount : Nat := 0
  generatedPartCount : Nat := 0
deriving DecidableEq, Repr

namespace Budget

def partFiles (file : PackFile) (parts : List String) : List PackFile :=
  (List.range parts.length).zip parts |>.map fun (i, part) =>
    { path := partPath file.path i parts.length, content := part }

def block (oversizedPaths : List String) (ceiling : Int) (file : PackFile) : List PackFile :=
  if oversizedPaths.contains file.path then
    let parts := splitByBudget file.content ceiling
    if parts.length ≤ 1 then [file] else partFiles file parts
  else [file]

def splitNotice (splitFileCount partCount : Nat) : List String :=
  if 0 < splitFileCount then
    [s!"Auto-balance enabled: split {splitFileCount} oversized file(s) into " ++
      s!"{partCount} part(s) to better balance pack sizes."]
  else []

def balance (files : List PackFile) (ceiling : Int) : Except Fault Balance :=
  let ceiling := max 1 ceiling
  let oversized := findOversized files ceiling
  if oversized.isEmpty then .ok { files, ceiling }
  else do
    let blocks := files.map (block (oversized.map (·.path)) ceiling)
    let split := blocks.filter fun parts => 1 < parts.length
    let splitFileCount := split.length
    let generatedPartCount := split.flatten.length
    let warning ← oversizedWarning oversized ceiling
    return {
      files := blocks.flatten
      oversized
      warnings := warning.toList ++ splitNotice splitFileCount generatedPartCount
      ceiling
      splitFileCount
      generatedPartCount }

end Budget

end PromptPack
