import PromptPack.Config.PackConfig
import PromptPack.Document.Json.Reader
import PromptPack.Document.Json.Writer
import PromptPack.Source.StoredFile

/-! Configurations in files of two formats. YAML is left to a library, and whatever library it is,
configurations are loaded and saved through it in the same way. -/

namespace PromptPack

/-- What a YAML library can be told about the text that it dumps. -/
structure DumpOptions where
  /-- Lists and mappings between brackets instead of in blocks. -/
  defaultFlowStyle : Bool
  /-- Characters beyond ASCII as they are instead of as escapes. -/
  allowUnicode : Bool
deriving DecidableEq, Repr

structure YamlLibrary where
  load : String → Except Fault Value
  dump : DumpOptions → Value → Except Fault String

inductive DocumentFormat where
  | json
  | yaml (library : YamlLibrary)

namespace DocumentFormat

def dumpOptions : DumpOptions where
  defaultFlowStyle := false
  allowUnicode := true

def read : DocumentFormat → String → Except Fault Value
  | .json => Json.read
  | .yaml library => library.load

def write : DocumentFormat → Value → Except Fault String
  | .json => Json.write
  | .yaml library => library.dump dumpOptions

end DocumentFormat

namespace PackConfig

def load (format : DocumentFormat) (name : String) (file : Option StoredFile) :
    Except Fault PackConfig :=
  match StoredFile.read file with
  | .error failure => .error failure.fault
  | .ok text => do ofDocument name (← format.read text)

def save (format : DocumentFormat) (config : PackConfig) : Except Fault String := do
  format.write (← config.toValue)

def loadsAs (format : DocumentFormat) (name text : String) (config : PackConfig) :
    Except Fault Bool := do
  return config.same (← load format name (some (.text text)))

end PackConfig

end PromptPack
