import PromptPack.Budget.PackFile
import PromptPack.Document.Value

/-! The last step of a packing is done outside: a bundler lays the files out into packs, or fails. -/

namespace PromptPack

structure Pack where
  index : Nat
  content : String
  estimatedTokens : Int
  filePaths : List String
deriving DecidableEq, Repr

structure PackResponse where
  packs : List Pack
  totalTokens : Int
deriving DecidableEq, Repr

structure BundleRequest where
  files : List PackFile
  numPacks : Value
  outputFormat : Value
  profileId : Value
deriving Repr

structure Failure where
  kind : String
  message : String
deriving DecidableEq, Repr

/-- A failure without a message is named by its kind. -/
def Failure.text (failure : Failure) : String :=
  if failure.message.isEmpty then failure.kind else failure.message

abbrev Bundler := BundleRequest → Except Failure PackResponse

/-- A bundler with a state of its own, such as the requests it has had. -/
abbrev BundlerWith (σ : Type) := BundleRequest → σ → Except Failure PackResponse × σ

def Bundler.stateless (bundler : Bundler) : BundlerWith Unit := fun request s => (bundler request, s)

end PromptPack
