import PromptPack.Source.SourceFile
import PromptPack.Table
import PromptPack.Trace

/-! Reading the files of a selection. A file that cannot be read counts as empty. -/

namespace PromptPack

abbrev FileReader := String → Except String String

namespace Packing

def readInto (reader : FileReader) (contents : Table String String) (file : SourceFile) :
    Traced (Table String String) :=
  match reader file.path with
  | .ok text => pure (contents.set file.path text)
  | .error reason => do
    Traced.write .warning .packing
      s!"Could not read {file.path}, treating it as empty: {reason}"
    return contents.set file.path ""

def loadContents (reader : FileReader) (files : List SourceFile) :
    Traced (Table String String) :=
  (files.filter (!·.isDir)).foldlM (readInto reader) []

end Packing

end PromptPack
