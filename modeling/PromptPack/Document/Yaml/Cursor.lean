import PromptPack.Fault

/-! A place in a YAML text, with its line and column. What is behind the end reads as a null
character, which no text contains. -/

namespace PromptPack.Yaml

structure Cursor where
  rest : List Char
  index : Nat := 0
  line : Nat := 0
  column : Nat := 0
deriving Repr, Inhabited

def endMark : Char := Char.ofNat 0

/-- The byte order mark; it takes no column. -/
def orderMark : Char := Char.ofNat 0xFEFF

def isBreak (c : Char) : Bool :=
  c == '\n' || c == '\r' || c.toNat == 0x85 || c.toNat == 0x2028 || c.toNat == 0x2029

def endsLine (c : Char) : Bool := c == endMark || isBreak c

def isGap (c : Char) : Bool := c == ' ' || endsLine c

def isWideGap (c : Char) : Bool := c == '\t' || isGap c

/-- Tabs, line feeds, carriage returns and what can be printed. -/
def isAllowed (c : Char) : Bool :=
  let n := c.toNat
  n == 9 || n == 10 || n == 13 || (0x20 ≤ n && n ≤ 0x7E) || n == 0x85 ||
    (0xA0 ≤ n && n ≤ 0xD7FF) || (0xE000 ≤ n && n ≤ 0xFFFD) || 0x10000 ≤ n

namespace Cursor

def ofText (cs : List Char) : Cursor := { rest := cs }

def peek (here : Cursor) : Char := here.rest.headD endMark

def peekAt (here : Cursor) (n : Nat) : Char := (here.rest.drop n).headD endMark

def next (here : Cursor) : Cursor :=
  match here.rest with
  | [] => here
  | c :: rest =>
    if isBreak c && !(c == '\r' && rest.head? == some '\n') then
      { rest, index := here.index + 1, line := here.line + 1, column := 0 }
    else
      { rest, index := here.index + 1, line := here.line,
        column := if c == orderMark then here.column else here.column + 1 }

def skip (n : Nat) (here : Cursor) : Cursor :=
  match n with
  | 0 => here
  | n + 1 => skip n here.next

def takeWhile (p : Char → Bool) (here : Cursor) : List Char := here.rest.takeWhile p

def skipWhile (p : Char → Bool) (here : Cursor) : Cursor := here.skip (here.takeWhile p).length

def skipBlanks (here : Cursor) : Cursor := here.skipWhile (· == ' ')

/-- The line break that is next, as it is read: the common ones as a line feed. -/
def lineBreak? (here : Cursor) : Option (Char × Cursor) :=
  let c := here.peek
  if c == '\r' && here.peekAt 1 == '\n' then some ('\n', here.skip 2)
  else if c == '\n' || c == '\r' || c.toNat == 0x85 then some ('\n', here.next)
  else if isBreak c then some (c, here.next)
  else none

def skipComment (here : Cursor) : Cursor :=
  if here.peek == '#' then here.skipWhile fun c => !isBreak c else here

/-- Three equal marks with a gap behind them: where a document starts or ends. -/
def isMark (c : Char) (here : Cursor) : Bool :=
  here.peek == c && here.peekAt 1 == c && here.peekAt 2 == c && isWideGap (here.peekAt 3)

def isSeparator (here : Cursor) : Bool := here.isMark '-' || here.isMark '.'

end Cursor

end PromptPack.Yaml
