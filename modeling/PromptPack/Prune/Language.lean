import PromptPack.Source.SourceFile

/-! The language families that pruning knows, by file extension. -/

namespace PromptPack

inductive LanguageFamily where
  | typescript | python | rust | go | unsupported
deriving DecidableEq, Repr

namespace LanguageFamily

def name : LanguageFamily → String
  | .typescript => "typescript"
  | .python => "python"
  | .rust => "rust"
  | .go => "go"
  | .unsupported => "unsupported"

def ofName? (name : String) : Option LanguageFamily :=
  [typescript, python, rust, go, unsupported].find? fun family => family.name = name

def ofNormalized (extension : String) : LanguageFamily :=
  if ["ts", "tsx", "js", "jsx", "mjs", "cjs"].contains extension then .typescript
  else if extension = "py" then .python
  else if extension = "rs" then .rust
  else if extension = "go" then .go
  else .unsupported

def ofExtension (extension : String) : LanguageFamily :=
  ofNormalized (SourceFile.normalize extension)

end LanguageFamily

namespace SourceFile

def family (file : SourceFile) : LanguageFamily := .ofNormalized file.normalizedExtension

def isEligible (file : SourceFile) : Bool := !file.isDir && file.family != .unsupported

end SourceFile

end PromptPack
