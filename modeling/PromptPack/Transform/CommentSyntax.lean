/-! Where comments and string literals start and end in the languages that are read character by
character. -/

namespace PromptPack

structure LiteralRule where
  mark : Char
  /-- Whether a literal may go on past the end of its line. -/
  spansLines : Bool := false
  /-- Whether a backslash protects the character behind it. -/
  escapes : Bool := true
deriving DecidableEq, Repr

/-- A line comment runs to the end of its line and a block comment to its closer. -/
structure CommentSyntax where
  lineOpener : List Char
  blockOpener : List Char
  blockCloser : List Char
  literals : List LiteralRule
deriving DecidableEq, Repr

namespace CommentSyntax

def slashes (literals : List LiteralRule) : CommentSyntax :=
  ⟨"//".toList, "/*".toList, "*/".toList, literals⟩

def plainLiterals : List LiteralRule := [{ mark := '"' }, { mark := '\'' }]

/-- The mark of template literals and of raw strings. -/
def tick : Char := Char.ofNat 0x60

def script : CommentSyntax := slashes (plainLiterals ++ [{ mark := tick, spansLines := true }])

def go : CommentSyntax :=
  slashes (plainLiterals ++ [{ mark := tick, spansLines := true, escapes := false }])

/-- A single quote marks a lifetime here. -/
def rust : CommentSyntax := slashes [{ mark := '"', spansLines := true }]

def braces : CommentSyntax := slashes plainLiterals

def sql : CommentSyntax := ⟨"--".toList, "/*".toList, "*/".toList, plainLiterals⟩

def lua : CommentSyntax := ⟨"--".toList, "--[[".toList, "]]".toList, plainLiterals⟩

def ofExtension? (extension : String) : Option CommentSyntax :=
  if ["ts", "tsx", "js", "jsx", "mjs", "cjs"].contains extension then some script
  else if extension = "go" then some go
  else if extension = "rs" then some rust
  else if ["c", "cpp", "h", "hpp", "cs", "java", "kt", "swift"].contains extension then some braces
  else if extension = "sql" then some sql
  else if extension = "lua" then some lua
  else none

end CommentSyntax

end PromptPack
