import PromptPack.Document.Display

/-! Writing JSON, with two blanks for each level. Only quotes, backslashes and controls are escaped;
keys that are not texts are written as the text of their value, and integers of too many digits not at
all. -/

namespace PromptPack.Json

def floats : FloatStyle where
  nan := "NaN"
  infinity := "Infinity"
  negativeInfinity := "-Infinity"
  pointBeforeExponent := false

def escapeChar (c : Char) : List Char :=
  if c = '"' then ['\\', '"']
  else if c = '\\' then ['\\', '\\']
  else if c = '\n' then ['\\', 'n']
  else if c = '\r' then ['\\', 'r']
  else if c = '\t' then ['\\', 't']
  else if c.toNat = 12 then ['\\', 'f']
  else if c.toNat = 8 then ['\\', 'b']
  else if c.toNat < 32 then '\\' :: 'u' :: Value.hexDigits 4 c.toNat
  else [c]

def textChars (s : String) : List Char := '"' :: s.toList.flatMap escapeChar ++ ['"']

def indent (level : Nat) : List Char := '\n' :: List.replicate (2 * level) ' '

def scalar : Value → Except Fault (List Char)
  | .null => .ok "null".toList
  | .bool true => .ok "true".toList
  | .bool false => .ok "false".toList
  | .int n => (IntegerText.write n).map String.toList
  | .float x => .ok (floats.text x).toList
  | .text s => .ok (textChars s)
  | _ => .error .wrongType

def key : Value → Except Fault (List Char)
  | .text s => .ok (textChars s)
  | key => (scalar key).map fun cs => '"' :: cs ++ ['"']

mutual

def writeValue (level : Nat) : Value → Except Fault (List Char)
  | .list [] => .ok ['[', ']']
  | .list items => do
    return '[' :: (← writeItems (level + 1) items) ++ indent level ++ [']']
  | .map [] => .ok ['\x7b', '\x7d']
  | .map entries => do
    return '\x7b' :: (← writeEntries (level + 1) entries) ++ indent level ++ ['\x7d']
  | value => scalar value

def writeItems (level : Nat) : List Value → Except Fault (List Char)
  | [] => .ok []
  | [item] => do return indent level ++ (← writeValue level item)
  | item :: items => do
    return indent level ++ (← writeValue level item) ++ ',' :: (← writeItems level items)

def writeEntries (level : Nat) : List (Value × Value) → Except Fault (List Char)
  | [] => .ok []
  | [(name, value)] => do
    return indent level ++ (← key name) ++ ':' :: ' ' :: (← writeValue level value)
  | (name, value) :: entries => do
    return indent level ++ (← key name) ++ ':' :: ' ' :: (← writeValue level value) ++
      ',' :: (← writeEntries level entries)

end

def write (value : Value) : Except Fault String := (writeValue 0 value).map String.ofList

end PromptPack.Json
