import PromptPack.Document.Value
import PromptPack.Numeric.Decimal
import PromptPack.Numeric.IntegerText

/-! Reading JSON. The three non-finite numbers are read too; an integer is kept exactly and a number
with a point or an exponent is a double; of equal keys the last value wins, in the first place. -/

namespace PromptPack.Json

open IntegerText (maxDigits)

abbrev Read (α : Type) := Except Fault (α × List Char)

def isSpace (c : Char) : Bool := c == ' ' || c == '\t' || c == '\n' || c == '\r'

def skipSpaces (cs : List Char) : List Char := cs.dropWhile isSpace

def digitsValue (ds : List Char) : Nat := ds.foldl (fun n c => 10 * n + (c.toNat - 48)) 0

def hexValue? (c : Char) : Option Nat :=
  if c.isDigit then some (c.toNat - 48)
  else if 'a' ≤ c ∧ c ≤ 'f' then some (c.toNat - 87)
  else if 'A' ≤ c ∧ c ≤ 'F' then some (c.toNat - 55)
  else none

def unit? : List Char → Option (Nat × List Char)
  | a :: b :: c :: d :: rest => do
    let digits ← [a, b, c, d].mapM hexValue?
    return (digits.foldl (fun n h => 16 * n + h) 0, rest)
  | _ => none

def isHighSurrogate (n : Nat) : Bool := 0xD800 ≤ n && n < 0xDC00
def isLowSurrogate (n : Nat) : Bool := 0xDC00 ≤ n && n < 0xE000

/-- Stands for a surrogate without a partner. -/
def replacement : Char := Char.ofNat 0xFFFD

def unitChar (n : Nat) : Char :=
  if isHighSurrogate n || isLowSurrogate n then replacement else Char.ofNat n

/-- The character of an escape written as units; two units may make one character. -/
def escapedChar? (cs : List Char) : Option (Char × List Char) := do
  let (high, rest) ← unit? cs
  if isHighSurrogate high then
    match rest with
    | '\\' :: 'u' :: more =>
      match unit? more with
      | some (low, rest') =>
        if isLowSurrogate low then
          return (Char.ofNat (0x10000 + (high - 0xD800) * 0x400 + (low - 0xDC00)), rest')
        else return (replacement, rest)
      | none => return (replacement, rest)
    | _ => return (replacement, rest)
  else return (unitChar high, rest)

def shortEscape? : Char → Option Char
  | '"' => some '"'
  | '\\' => some '\\'
  | '/' => some '/'
  | 'b' => some (Char.ofNat 8)
  | 'f' => some (Char.ofNat 12)
  | 'n' => some '\n'
  | 'r' => some '\r'
  | 't' => some '\t'
  | _ => none

def readText : Nat → List Char → List Char → Read String
  | 0, _, _ => .error .malformedJson
  | _ + 1, _, [] => .error .malformedJson
  | fuel + 1, seen, c :: cs =>
    if c = '"' then .ok (String.ofList seen.reverse, cs)
    else if c.toNat < 32 then .error .malformedJson
    else if c ≠ '\\' then readText fuel (c :: seen) cs
    else
      match cs with
      | [] => .error .malformedJson
      | 'u' :: rest =>
        match escapedChar? rest with
        | some (d, rest) => readText fuel (d :: seen) rest
        | none => .error .malformedJson
      | e :: rest =>
        match shortEscape? e with
        | some d => readText fuel (d :: seen) rest
        | none => .error .malformedJson

def readFraction : List Char → List Char × List Char
  | '.' :: cs =>
    let ds := cs.takeWhile Char.isDigit
    if ds.isEmpty then ([], '.' :: cs) else (ds, cs.dropWhile Char.isDigit)
  | cs => ([], cs)

def readExponent (cs : List Char) : Option Int × List Char :=
  match cs with
  | e :: rest =>
    if e = 'e' ∨ e = 'E' then
      let (negative, rest) :=
        match rest with
        | '-' :: rest => (true, rest)
        | '+' :: rest => (false, rest)
        | _ => (false, rest)
      let ds := rest.takeWhile Char.isDigit
      if ds.isEmpty then (none, cs)
      else
        let n : Int := digitsValue ds
        (some (if negative then -n else n), rest.dropWhile Char.isDigit)
    else (none, cs)
  | [] => (none, [])

/-- The digits in front of a point or an exponent; nothing goes on a leading zero. -/
def wholeDigits (cs : List Char) : List Char :=
  match cs with
  | '0' :: _ => ['0']
  | _ => cs.takeWhile Char.isDigit

def readNumber (negative : Bool) (cs : List Char) : Read Value :=
  let whole := wholeDigits cs
  if whole.isEmpty then .error .malformedJson
  else
    let (fraction, afterFraction) := readFraction (cs.drop whole.length)
    let (exponent, rest) := readExponent afterFraction
    if fraction.isEmpty && exponent.isNone then
      if maxDigits < whole.length then .error .badValue
      else
        let n : Int := digitsValue whole
        .ok (.int (if negative then -n else n), rest)
    else
      .ok (.float (Decimal.toBinary64 negative (digitsValue (whole ++ fraction))
        (exponent.getD 0 - fraction.length)), rest)

def readWord (key : String) (value : Value) (cs : List Char) : Read Value :=
  if key.toList.isPrefixOf cs then .ok (value, cs.drop key.length) else .error .malformedJson

mutual

def readValue : Nat → List Char → Read Value
  | 0, _ => .error .malformedJson
  | _ + 1, [] => .error .malformedJson
  | fuel + 1, c :: cs =>
    match c with
    | '"' => (readText (cs.length + 1) [] cs).map fun (s, rest) => (.text s, rest)
    | '[' =>
      match skipSpaces cs with
      | ']' :: rest => .ok (.list [], rest)
      | rest => readItems fuel [] rest
    | '\x7b' =>
      match skipSpaces cs with
      | '\x7d' :: rest => .ok (.map [], rest)
      | rest => readEntries fuel [] rest
    | 'n' => readWord "null" .null (c :: cs)
    | 't' => readWord "true" (.bool true) (c :: cs)
    | 'f' => readWord "false" (.bool false) (c :: cs)
    | 'N' => readWord "NaN" (.float .nan) (c :: cs)
    | 'I' => readWord "Infinity" (.float (.infinite false)) (c :: cs)
    | '-' =>
      match cs with
      | 'I' :: _ => readWord "Infinity" (.float (.infinite true)) cs
      | _ => readNumber true cs
    | _ => readNumber false (c :: cs)

def readItems : Nat → List Value → List Char → Read Value
  | 0, _, _ => .error .malformedJson
  | fuel + 1, items, cs =>
    match readValue fuel cs with
    | .error fault => .error fault
    | .ok (item, rest) =>
      match skipSpaces rest with
      | ',' :: rest => readItems fuel (item :: items) (skipSpaces rest)
      | ']' :: rest => .ok (.list (item :: items).reverse, rest)
      | _ => .error .malformedJson

def readEntries : Nat → List (Value × Value) → List Char → Read Value
  | 0, _, _ => .error .malformedJson
  | fuel + 1, entries, cs =>
    match cs with
    | '"' :: cs =>
      match readText (cs.length + 1) [] cs with
      | .error fault => .error fault
      | .ok (key, rest) =>
        match skipSpaces rest with
        | ':' :: rest =>
          match readValue fuel (skipSpaces rest) with
          | .error fault => .error fault
          | .ok (value, rest) =>
            let entries := Value.put entries (.text key) value
            match skipSpaces rest with
            | ',' :: rest => readEntries fuel entries (skipSpaces rest)
            | '\x7d' :: rest => .ok (.map entries, rest)
            | _ => .error .malformedJson
        | _ => .error .malformedJson
    | _ => .error .malformedJson

end

def read (text : String) : Except Fault Value :=
  let cs := text.toList
  match readValue (2 * cs.length + 2) (skipSpaces cs) with
  | .error fault => .error fault
  | .ok (value, rest) => if (skipSpaces rest).isEmpty then .ok value else .error .malformedJson

end PromptPack.Json
