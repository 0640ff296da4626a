import PromptPack.Config.ConfigFile
import PromptPack.Document.Yaml.Reader
import PromptPack.Document.Yaml.Writer

/-! The YAML library that the program runs with where no other is given. No statement is about it:
configurations are loaded and saved by a library that is a parameter. -/

namespace PromptPack.Yaml

/-- It dumps only in the way that configurations are saved: in blocks and with characters as they are. -/
def library : YamlLibrary where
  load := read
  dump options document :=
    if options = DocumentFormat.dumpOptions then write document else .error .wrongType

end PromptPack.Yaml
