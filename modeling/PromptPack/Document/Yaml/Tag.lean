import PromptPack.Document.Yaml.Moment

/-! What a scalar without a tag is, by its text alone. The grammars of numbers include binary,
octal and hexadecimal integers, underscores between digits, and colons between groups to the base
of sixty. -/

namespace PromptPack.Yaml

inductive Tag where
  | null | bool | int | float | moment | binary | text
  | list | map | set | orderedMap | pairs
  /-- The key of entries to be merged. -/
  | merge
  /-- The key of the value of a mapping that stands for a scalar. -/
  | default
  | unknown
deriving DecidableEq, Repr

namespace Tag

def coreSpace : String := "tag:yaml.org,2002:"

def coreTags : List (String × Tag) :=
  [ ("null", null), ("bool", bool), ("int", int), ("float", float), ("timestamp", moment),
    ("binary", binary), ("str", text), ("seq", list), ("map", map), ("set", set),
    ("omap", orderedMap), ("pairs", pairs), ("merge", merge), ("value", default) ]

def ofUri (uri : String) : Tag :=
  match coreTags.find? fun (name, _) => coreSpace ++ name == uri with
  | some (_, tag) => tag
  | none => unknown

end Tag

/-! Numbers -/

def dropSign (cs : List Char) : List Char :=
  match cs with
  | c :: rest => if c = '-' ∨ c = '+' then rest else cs
  | [] => []

def areDigits (isDigit : Char → Bool) (cs : List Char) : Bool :=
  cs.all fun c => isDigit c || c == '_'

def isBinaryDigit (c : Char) : Bool := c == '0' || c == '1'
def isOctalDigit (c : Char) : Bool := '0' ≤ c && c ≤ '7'

def isHexDigit (c : Char) : Bool :=
  c.isDigit || ('a' ≤ c && c ≤ 'f') || ('A' ≤ c && c ≤ 'F')

def startsWithDigit (cs : List Char) : Bool :=
  match cs with
  | c :: rest => c.isDigit && areDigits Char.isDigit rest
  | [] => false

def isGroup (cs : List Char) : Bool :=
  match cs with
  | [c] => c.isDigit
  | [c, d] => '0' ≤ c && c ≤ '5' && d.isDigit
  | _ => false

def areGroups (isLeading : List Char → Bool) (cs : List Char) : Bool :=
  match Text.splitOn ':' cs with
  | first :: groups => isLeading first && !groups.isEmpty && groups.all isGroup
  | [] => false

def isPositive (cs : List Char) : Bool := startsWithDigit cs && cs.head? != some '0'

def isInteger (cs : List Char) : Bool :=
  match dropSign cs with
  | '0' :: 'b' :: digits => !digits.isEmpty && areDigits isBinaryDigit digits
  | '0' :: 'x' :: digits => !digits.isEmpty && areDigits isHexDigit digits
  | '0' :: digits => areDigits isOctalDigit digits
  | body => isPositive body || areGroups isPositive body

def isExponent (cs : List Char) : Bool :=
  match cs with
  | [] => true
  | e :: sign :: digits =>
    (e == 'e' || e == 'E') && (sign == '-' || sign == '+') && !digits.isEmpty &&
      digits.all Char.isDigit
  | _ => false

def isFraction (cs : List Char) : Bool :=
  isExponent (cs.dropWhile fun c => c.isDigit || c == '_')

def isFloat (cs : List Char) : Bool :=
  let body := dropSign cs
  let whole := body.takeWhile (· != '.')
  match body.dropWhile (· != '.') with
  | [] => false
  | _ :: part =>
    if whole.isEmpty then
      [['i', 'n', 'f'], ['I', 'n', 'f'], ['I', 'N', 'F']].contains part ||
        (body == cs && ([['n', 'a', 'n'], ['N', 'a', 'N'], ['N', 'A', 'N']].contains part ||
          (part.head?.any Char.isDigit && isFraction part)))
    else
      (startsWithDigit whole && isFraction part) ||
        (areGroups startsWithDigit whole && areDigits Char.isDigit part)

def trueTexts : List String := ["yes", "Yes", "YES", "true", "True", "TRUE", "on", "On", "ON"]
def falseTexts : List String := ["no", "No", "NO", "false", "False", "FALSE", "off", "Off", "OFF"]
def nullTexts : List String := ["", "~", "null", "Null", "NULL"]

def Tag.ofPlain (s : String) : Tag :=
  if trueTexts.contains s || falseTexts.contains s then .bool
  else if nullTexts.contains s then .null
  else if s = "<<" then .merge
  else if s = "=" then .default
  else if isFloat s.toList then .float
  else if isInteger s.toList then .int
  else if Moment.isImplicit s.toList then .moment
  else .text

end PromptPack.Yaml
