import PromptPack.Document.Display
import PromptPack.Text.Scan
import PromptPack.Text.Utf8

/-! Files as they are stored, and reading one as text: strict UTF-8, every line break read as a line
feed. -/

namespace PromptPack

inductive StoredFile where
  | text (content : String)
  | bytes (data : List Nat)
  | directory
deriving DecidableEq, Repr

inductive ReadFailure where
  | missing
  | directory
  | undecodable (cause : Text.Utf8.Malformed)
deriving DecidableEq, Repr

namespace ReadFailure

def fault : ReadFailure → Fault
  | .missing => .noSuchFile
  | .directory => .isDirectory
  | .undecodable _ => .undecodable

def message (path : String) : ReadFailure → String
  | .missing => s!"[Errno 2] No such file or directory: {Value.quoted path}"
  | .directory => s!"[Errno 21] Is a directory: {Value.quoted path}"
  | .undecodable cause => cause.message

end ReadFailure

namespace StoredFile

open Text

def skipLineFeed (cs : List Char) : List Char := if cs.head? = some '\n' then cs.drop 1 else cs

theorem length_skipLineFeed (cs : List Char) : (skipLineFeed cs).length ≤ cs.length := by
  unfold skipLineFeed
  split
  · rw [List.length_drop]
    exact Nat.sub_le _ _
  · exact Nat.le_refl _

/-- A carriage return, with a line feed behind it or alone, becomes a line feed. -/
def breakStep : ScanStep := fun c cs =>
  if c = '\r' then (['\n'], ⟨skipLineFeed cs, length_skipLineFeed cs⟩) else copy c cs

def normalizeBreaks (cs : List Char) : List Char := scan breakStep cs

def read : Option StoredFile → Except ReadFailure String
  | none => .error .missing
  | some .directory => .error .directory
  | some (.text content) => .ok (String.ofList (normalizeBreaks content.toList))
  | some (.bytes data) =>
    match Utf8.decode data with
    | .ok cs => .ok (String.ofList (normalizeBreaks cs))
    | .error cause => .error (.undecodable cause)

end StoredFile

end PromptPack
