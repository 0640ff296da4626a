import PromptPack.Document.Yaml.Cursor
import PromptPack.Document.Yaml.Tag

/-! How a text can be written as a scalar of a block: plain if nothing in it could be taken for
something else, else between single quotes if every character may stand for itself, else between
double quotes. -/

namespace PromptPack.Yaml

inductive Style where
  | plain | single | double
deriving DecidableEq, Repr

def isTextBreak (c : Char) : Bool := isBreak c && c != '\r'

def isDirect (c : Char) : Bool :=
  let n := c.toNat
  c == '\n' || (0x20 ≤ n && n ≤ 0x7E) || n == 0x85 || (0xA0 ≤ n && n ≤ 0xD7FF) ||
    (0xE000 ≤ n && n ≤ 0xFFFD && n != 0xFEFF) || (0x10000 ≤ n && n < 0x10FFFF)

def gapNext (cs : List Char) : Bool := isWideGap (cs.headD endMark)

def startsIndicator : List Char → Bool
  | [] => false
  | c :: rest =>
    "#,[]\x7b\x7d&*!|>'\"%@\x60".toList.contains c ||
      ((c == '?' || c == ':' || c == '-') && gapNext rest)

def hasIndicator (before : Char) : List Char → Bool
  | [] => false
  | c :: rest =>
    (c == ':' && gapNext rest) || (c == '#' && isWideGap before) || hasIndicator c rest

def startsMark (cs : List Char) : Bool :=
  ['-', '-', '-'].isPrefixOf cs || ['.', '.', '.'].isPrefixOf cs

def hasPair (p q : Char → Bool) : List Char → Bool
  | c :: d :: rest => (p c && q d) || hasPair p q (d :: rest)
  | _ => false

def isSpace (c : Char) : Bool := c == ' '

def isMultiline (cs : List Char) : Bool := cs.any isTextBreak

/-- Whether a text without quotes reads back as the same characters. -/
def allowsPlain (cs : List Char) : Bool :=
  match cs with
  | [] => true
  | c :: rest =>
    !(startsMark cs || startsIndicator cs || hasIndicator c rest || cs.any (!isDirect ·) ||
      isMultiline cs || isSpace c || cs.getLast?.any isSpace)

/-- Single quotes fold lines, so no blank may stand at a line break. -/
def allowsSingle (cs : List Char) : Bool :=
  cs.all isDirect && !hasPair isSpace isTextBreak cs && !hasPair isTextBreak isSpace cs

def Style.ofText (text : String) : Style :=
  let cs := text.toList
  if Tag.ofPlain text = .text && allowsPlain cs then .plain
  else if allowsSingle cs then .single
  else .double

end PromptPack.Yaml
