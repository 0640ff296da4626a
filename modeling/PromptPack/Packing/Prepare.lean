import PromptPack.Budget.PackFile
import PromptPack.Config.PackConfig
import PromptPack.Prune.Reachability
import PromptPack.Transform.Apply

/-! From a selection to the files that are bundled: pruned, transformed, under their bundle paths and
with the token counts that are known. -/

namespace PromptPack.Packing

structure Prepared where
  files : List PackFile
  call : Option OracleCall := none
deriving Repr

/-- The texts of the selected files; a file without one counts as empty. -/
def rawContents (files : List SourceFile) (contents : Table String (Option String)) :
    Table String String :=
  .ofList (files.map fun file => (file.path, ((contents.get? file.path).join).getD ""))

/-- A count from the token map wins over the count of the file itself. -/
def packFile (texts : Table String String) (tokenMap : Table String Int) (settings : Settings)
    (file : SourceFile) : PackFile :=
  let text := (texts.get? file.path).getD ""
  { path := file.bundlePath
    content := Transform.apply text file.normalizedExtension settings
    tokenCount := (tokenMap.get? file.path).or file.explicitTokenCount }

def prepareFiles (oracle : Option Oracle) (selected : List SourceFile)
    (contents : Table String (Option String)) (settings : Settings) (tokenMap : Table String Int) :
    Traced Prepared := do
  let files := selected.filter (!·.isDir)
  let raw := rawContents files contents
  let pruned ←
    if settings.pruningEnabled then Prune.pruneSelection files raw settings.entryPoint oracle
    else pure { contents := raw }
  return ⟨files.map (packFile pruned.contents tokenMap settings), pruned.call⟩

end PromptPack.Packing
