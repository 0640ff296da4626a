import PromptPack.Text.LowerCase

/-! Files of a selection. The extension is derived from the path unless it is given; compared, it is
in lower case and without leading dots. -/

namespace PromptPack

structure SourceFile where
  path : String
  rawContent : String := ""
  extension : String := ""
  explicitTokenCount : Option Int := none
  relativePath : Option String := none
  isDir : Bool := false
deriving DecidableEq, Repr

namespace SourceFile

def dropDots (cs : List Char) : List Char := cs.dropWhile (· == '.')

/-- An extension in lower case, without leading dots. -/
def normalize (extension : String) : String :=
  String.ofList (dropDots (Text.lower extension.toList))

/-- The characters behind the last separator of either kind. -/
def fileName (path : List Char) : List Char :=
  (path.reverse.takeWhile fun c => !(c == '/' || c == '\\')).reverse

/-- What follows the last dot of the file name; dots that start the name do not count. -/
def extensionOf (path : String) : String :=
  let name := dropDots (fileName path.toList)
  if name.contains '.' then String.ofList (name.reverse.takeWhile (· != '.')).reverse else ""

def ofPath (file : SourceFile) : SourceFile := { file with extension := extensionOf file.path }

def normalizedExtension (file : SourceFile) : String := normalize file.extension

def bundlePath (file : SourceFile) : String :=
  match file.relativePath with
  | some path => if path.isEmpty then file.path else path
  | none => file.path

end SourceFile

end PromptPack
