import PromptPack.Text.Blank
import PromptPack.Text.Removal
import PromptPack.Transform.CommentSyntax

/-! Removing comments. Languages with a `CommentSyntax` are scanned, so that literals are copied as
they stand; in the others a hash sign outside quotes starts a comment, line by line. -/

namespace PromptPack.Transform

open Text

/-- How far a literal reaches; `n` characters of it are read, its opening mark the first. -/
def literalLength (rule : LiteralRule) (n : Nat) : List Char → Nat
  | [] => n
  | c :: cs =>
    if c = '\\' && rule.escapes then
      match cs with
      | [] => n + 1
      | _ :: rest => literalLength rule (n + 2) rest
    else if c = rule.mark then n + 1
    else if c = '\n' && !rule.spansLines then n
    else literalLength rule (n + 1) cs

/-- What follows a comment that starts here. A block comment without a closer takes the rest. -/
def afterComment? (rules : CommentSyntax) (cs : List Char) : Option (List Char) :=
  match after? rules.blockOpener cs with
  | some inner => some (((breakOn? rules.blockCloser inner).map (·.2)).getD [])
  | none => (after? rules.lineOpener cs).map fun inner => inner.dropWhile (· != '\n')

def literalAt? (rules : CommentSyntax) (c : Char) : Option LiteralRule :=
  rules.literals.find? fun rule => rule.mark == c

def commentStep (rules : CommentSyntax) : ScanStep := fun c cs =>
  match afterComment? rules (c :: cs) with
  | some rest => jump [] rest c cs
  | none =>
    match literalAt? rules c with
    | some rule =>
      let inside := literalLength rule 1 cs - 1
      (c :: cs.take inside, ⟨cs.drop inside, by simp⟩)
    | none => copy c cs

def stripScanned (rules : CommentSyntax) (cs : List Char) : List Char :=
  scan (commentStep rules) cs

/-- The part of a line before its first hash sign outside quotes, reversed and put on `passed`. -/
def beforeHash? (single double : Bool) (passed : List Char) : List Char → Option (List Char)
  | [] => none
  | c :: cs =>
    if c = '\'' && !double then beforeHash? (!single) double (c :: passed) cs
    else if c = '"' && !single then beforeHash? single (!double) (c :: passed) cs
    else if c = '#' && !single && !double then some passed.reverse
    else beforeHash? single double (c :: passed) cs

def stripHashLine (line : List Char) : List Char :=
  match beforeHash? false false [] line with
  | some code => trimEnd code
  | none => line

/-- A first line that names an interpreter is kept. -/
def stripHashLines : List (List Char) → List (List Char)
  | [] => []
  | first :: rest =>
    (if startsWith ['#', '!'] first then first else stripHashLine first) :: rest.map stripHashLine

def docstrings : Removal :=
  .orElse (.enclosed '"' ['"', '"'] ['"', '"', '"']) (.enclosed '\'' ['\'', '\''] ['\'', '\'', '\''])

def stripHash (extension : String) (cs : List Char) : List Char :=
  let stripped := unlines (stripHashLines (lines cs))
  if extension = "py" then docstrings.apply stripped else stripped

def hashExtensions : List String := ["py", "rb", "sh", "bash", "zsh", "yaml", "yml", "toml", "r"]

/-- A text of an extension that is not known stays as it is. -/
def stripComments (extension : String) (cs : List Char) : List Char :=
  match CommentSyntax.ofExtension? extension with
  | some rules => stripScanned rules cs
  | none => if hashExtensions.contains extension then stripHash extension cs else cs

end PromptPack.Transform
