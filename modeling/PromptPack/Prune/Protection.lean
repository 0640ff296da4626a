import PromptPack.Prune.Declaration
import PromptPack.Text.Search

/-! Names that look visible from outside. They are never removed. -/

namespace PromptPack.Prune

open Text
open Text.Pattern (word oneOrMore sequence anyOf)

/-- A line that starts, after blanks of any kind, with the given words. -/
def line (parts : List Pattern) : Pattern := sequence (.lineStart :: gap :: parts)

def notBrace (c : Char) : Bool := c != '\x7d'

def publicItem (kind : Pattern) (name : List Char) : Pattern :=
  line [word "pub", .optional (sequence [word "(", .run (· != ')'), word ")"]), blanks, kind,
    blanks, .literal name, .wordEdge]

def exportLines (family : LanguageFamily) (name : List Char) : List Pattern :=
  match family with
  | .typescript =>
    [ line [phrase ["export"], .optional (phrase ["default"]), .optional (phrase ["async"]),
        word "function", functionGap, .literal name, .wordEdge],
      line [phrase ["export"], anyOf [word "const", word "let", word "var"], blanks,
        .literal name, .wordEdge],
      line [phrase ["export"], .optional (phrase ["default"]), .optional (phrase ["abstract"]),
        phrase ["class"], .literal name, .wordEdge],
      line [word "export", gap, word "\x7b", .run notBrace, .wordEdge, .literal name, .wordEdge,
        .run notBrace, word "\x7d"] ]
  | .rust =>
    [ publicItem (.seq (.optional (phrase ["async"])) (word "fn")) name,
      publicItem (word "struct") name, publicItem (word "enum") name,
      publicItem (word "trait") name, publicItem (word "type") name ]
  | _ => []

def isCloser (c : Char) : Bool := c == ']' || c == ')'

/-- The members of an assignment to the export list, when one starts here. -/
def exportList? (cs : List Char) : Option (List Char) := do
  let rest ← after? "__all__".toList cs
  let rest := match trimStart rest with
    | '+' :: '=' :: rest => some rest
    | '=' :: rest => some rest
    | _ => none
  match trimStart (← rest) with
  | c :: members =>
    if (c = '[' || c = '(') && members.any isCloser then
      some (members.takeWhile fun c => !isCloser c)
    else none
  | [] => none

/-- The name between quotes, of either kind at each end. -/
def quotedName (name : List Char) : Pattern :=
  sequence [oneOf "'\"", .literal name, oneOf "'\""]

def listedFrom (name : List Char) (atLineStart : Bool) : List Char → Bool
  | [] => false
  | c :: cs =>
    (atLineStart && (exportList? (c :: cs)).any fun members => (quotedName name).foundIn members) ||
      listedFrom name (c == '\n') cs

def isListed (name cs : List Char) : Bool := listedFrom name true cs

def isProtected (family : LanguageFamily) (name cs : List Char) : Bool :=
  match family with
  | .python => isListed name cs
  | .go => name.head?.any isUpperCase
  | _ => (exportLines family name).any fun pattern => pattern.foundIn cs

end PromptPack.Prune
