import PromptPack.Document.Display
import PromptPack.Document.Yaml.Style

/-! Writing scalars. Beyond column eighty a line is folded at the next single blank; double quotes
mark the fold with a backslash. -/

namespace PromptPack.Yaml

def maxColumn : Nat := 80

/-- Where a scalar is written: its lines after the first start at `indent`, and it is folded or
not. -/
structure Place where
  column : Nat
  indent : Nat
  fold : Bool

def lineStart (indent : Nat) : List Char := '\n' :: List.replicate indent ' '

def after (column : Nat) (cs : List Char) : Nat := column + cs.length

def runs (kind : Char → Nat) : List Char → List (List Char)
  | [] => []
  | c :: cs =>
    match runs kind cs with
    | (d :: run) :: others => if kind c = kind d then (c :: d :: run) :: others else [c] :: (d :: run) :: others
    | others => [c] :: others

def kindOf (c : Char) : Nat := if isSpace c then 1 else if isTextBreak c then 2 else 0

/-- Line breaks inside single quotes: a line feed is doubled at their start, since reading folds
one. -/
def writeBreaks (indent : Nat) (breaks : List Char) : List Char :=
  let first := if breaks.head? = some '\n' then ['\n'] else []
  first ++ breaks ++ List.replicate indent ' '

def doubleQuote (c : Char) : List Char := if c = '\'' then ['\'', '\''] else [c]

/-- The runs of a text in order; a single blank between two of them may become a line break. -/
def writeRuns (indent : Nat) (fold : Bool) (column : Nat) (first : Bool) :
    List (List Char) → List Char
  | [] => []
  | run :: others =>
    match run with
    | c :: rest =>
      if isTextBreak c then
        writeBreaks indent run ++ writeRuns indent fold indent false others
      else if isSpace c && rest.isEmpty && maxColumn < column && fold && !first && !others.isEmpty then
        lineStart indent ++ writeRuns indent fold indent false others
      else run ++ writeRuns indent fold (after column run) false others
    | [] => writeRuns indent fold column first others

def writePlain (place : Place) (cs : List Char) : List Char :=
  writeRuns place.indent place.fold place.column true (runs kindOf cs)

def writeSingle (place : Place) (cs : List Char) : List Char :=
  '\'' :: writeRuns place.indent place.fold (place.column + 1) true
    ((runs kindOf cs).map fun run => run.flatMap doubleQuote) ++ ['\'']

def shortEscape? (c : Char) : Option Char :=
  match c.toNat with
  | 0 => some '0'
  | 7 => some 'a'
  | 8 => some 'b'
  | 9 => some 't'
  | 10 => some 'n'
  | 11 => some 'v'
  | 12 => some 'f'
  | 13 => some 'r'
  | 27 => some 'e'
  | 0x22 => some '"'
  | 0x5C => some '\\'
  | 0x85 => some 'N'
  | 0x2028 => some 'L'
  | 0x2029 => some 'P'
  | _ => none

def isUnescaped (c : Char) : Bool :=
  let n := c.toNat
  (0x20 ≤ n && n ≤ 0x7E && c != '"' && c != '\\') ||
    (0xA0 ≤ n && n ≤ 0xD7FF && n != 0x2028 && n != 0x2029) ||
    (0xE000 ≤ n && n ≤ 0xFFFD && n != 0xFEFF)

def hexCapitals (width n : Nat) : List Char := (Value.hexDigits width n).map Char.toUpper

def escape (c : Char) : List Char :=
  match shortEscape? c with
  | some letter => ['\\', letter]
  | none =>
    if c.toNat ≤ 0xFF then '\\' :: 'x' :: hexCapitals 2 c.toNat
    else if c.toNat ≤ 0xFFFF then '\\' :: 'u' :: hexCapitals 4 c.toNat
    else '\\' :: 'U' :: hexCapitals 8 c.toNat

/-- A fold between double quotes; a blank behind it is escaped, since reading skips blanks there. -/
def foldMark (indent : Nat) (blankNext : Bool) : List Char :=
  '\\' :: lineStart indent ++ (if blankNext then ['\\'] else [])

/-- The rest of a text between double quotes. `fresh` says that an escape was written last. -/
def writeEscaped (indent : Nat) (fold first : Bool) (column : Nat) (fresh : Bool) :
    List Char → List Char
  | [] => []
  | c :: rest =>
    let inner := fold && !first && !rest.isEmpty
    if isUnescaped c then
      if inner && (isSpace c || fresh) && maxColumn < column then
        let mark := foldMark indent (isSpace c)
        mark ++ c :: writeEscaped indent fold false (indent + (if isSpace c then 2 else 1)) false rest
      else c :: writeEscaped indent fold false (column + 1) false rest
    else
      let written := escape c
      let column := after column written
      if inner && maxColumn + 1 < column then
        let blankNext := rest.head?.any isSpace
        written ++ foldMark indent blankNext ++
          writeEscaped indent fold false (indent + (if blankNext then 1 else 0)) true rest
      else written ++ writeEscaped indent fold false column true rest

def writeDouble (place : Place) (cs : List Char) : List Char :=
  '"' :: writeEscaped place.indent place.fold true (place.column + 1) true cs ++ ['"']

def writeStyled (style : Style) (place : Place) (cs : List Char) : List Char :=
  match style with
  | .plain => writePlain place cs
  | .single => writeSingle place cs
  | .double => writeDouble place cs

end PromptPack.Yaml
