import PromptPack.Document.Value
import PromptPack.Numeric.Decimal
import PromptPack.Numeric.IntegerText
import PromptPack.Text.Printable

/-! The text that stands for a value in a message. A text stands for itself on its own and is quoted
inside a list or a mapping. A value with an integer of too many digits has none. -/

namespace PromptPack.Value

def shownFloat : FloatStyle where
  nan := "nan"
  infinity := "inf"
  negativeInfinity := "-inf"
  pointBeforeExponent := false

def hexDigits (width n : Nat) : List Char := Decimal.padLeft width (Nat.toDigits 16 n)

def quoteChar (quote c : Char) : List Char :=
  if c = quote ∨ c = '\\' then ['\\', c]
  else if c = '\n' then ['\\', 'n']
  else if c = '\r' then ['\\', 'r']
  else if c = '\t' then ['\\', 't']
  else if Text.isPrintable c then [c]
  else if c.toNat < 0x100 then '\\' :: 'x' :: hexDigits 2 c.toNat
  else if c.toNat < 0x10000 then '\\' :: 'u' :: hexDigits 4 c.toNat
  else '\\' :: 'U' :: hexDigits 8 c.toNat

/-- Single quotes, unless the text has some and no double ones. -/
def quoteFor (cs : List Char) : Char :=
  if cs.contains '\'' && !cs.contains '"' then '"' else '\''

def quoted (s : String) : String :=
  let quote := quoteFor s.toList
  String.ofList (quote :: s.toList.flatMap (quoteChar quote) ++ [quote])

def quotedBytes (data : List Nat) : String :=
  let cs := data.map Char.ofNat
  let quote := quoteFor cs
  let shown := cs.flatMap fun c =>
    if 127 ≤ c.toNat then '\\' :: 'x' :: hexDigits 2 c.toNat else quoteChar quote c
  String.ofList ('b' :: quote :: shown ++ [quote])

def openBrace : String := "\x7b"
def closeBrace : String := "\x7d"

mutual

def inner : Value → Except Fault String
  | .null => .ok "None"
  | .bool true => .ok "True"
  | .bool false => .ok "False"
  | .int n => IntegerText.write n
  | .float x => .ok (shownFloat.text x)
  | .text s => .ok (quoted s)
  | .list items => do return "[" ++ (← innerItems items) ++ "]"
  | .map entries => do return openBrace ++ (← innerEntries entries) ++ closeBrace
  | .moment iso => .ok iso
  | .bytes data => .ok (quotedBytes data)
  | .set [] => .ok "set()"
  | .set members => do return openBrace ++ (← innerItems members) ++ closeBrace

def innerItems : List Value → Except Fault String
  | [] => .ok ""
  | [item] => inner item
  | item :: items => do return (← inner item) ++ ", " ++ (← innerItems items)

def innerEntries : List (Value × Value) → Except Fault String
  | [] => .ok ""
  | [(key, value)] => do return (← inner key) ++ ": " ++ (← inner value)
  | (key, value) :: entries => do
    return (← inner key) ++ ": " ++ (← inner value) ++ ", " ++ (← innerEntries entries)

end

def display : Value → Except Fault String
  | .text s => .ok s
  | value => value.inner

end PromptPack.Value
