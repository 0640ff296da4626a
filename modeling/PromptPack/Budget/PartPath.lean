import PromptPack.Numeric.IntegerText
import PromptPack.Text.Search

/-! The names of the parts of a split file. The part number goes in front of the extension; a name
without one, such as a name whose only dot comes first, gets it at the end. -/

namespace PromptPack.Budget

def isSeparator (c : Char) : Bool := c == '/' || c == '\\'

def splitDirectory (path : List Char) : List Char × List Char :=
  ((path.reverse.dropWhile fun c => !isSeparator c).reverse,
    (path.reverse.takeWhile fun c => !isSeparator c).reverse)

def splitExtension (name : List Char) : List Char × List Char :=
  match Text.splitAtLast? '.' name with
  | some (c :: stem, extension) => (c :: stem, extension)
  | _ => (name, [])

def partMark (index count : Int) : List Char := s!".part-{index + 1}-of-{count}".toList

def partPath (path : String) (index count : Int) : String :=
  let (directory, name) := splitDirectory path.toList
  let (stem, extension) := splitExtension name
  String.ofList (directory ++ stem ++ partMark index count ++ extension)

/-- The path of a part by any numbers, of which those that are too long have no text. -/
def writePartPath (path : String) (index count : Int) : Except Fault String :=
  if IntegerText.isWritable (index + 1) && IntegerText.isWritable count then
    .ok (partPath path index count)
  else .error .badValue

end PromptPack.Budget
