import PromptPack.Document.Value
import PromptPack.Document.Yaml.Tag
import PromptPack.Numeric.DecimalText
import PromptPack.Text.LowerCase

/-! The values of scalars, by tag. A text that does not fit its tag is a fault. -/

namespace PromptPack.Yaml

def withoutUnderscores (cs : List Char) : List Char := cs.filter (· != '_')

def boolOf (text : String) : Except Fault Value :=
  let name := String.ofList (Text.lower text.toList)
  if ["yes", "true", "on"].contains name then .ok (.bool true)
  else if ["no", "false", "off"].contains name then .ok (.bool false)
  else .error (.missingField name)

def orBadValue {α : Type} : Option α → Except Fault α
  | some a => .ok a
  | none => .error .badValue

/-- Groups to the base of sixty, the least one first. -/
def groupSum : List Int → Int
  | [] => 0
  | n :: groups => n + 60 * groupSum groups

def magnitudeOf (cs : List Char) : Except Fault Int :=
  match cs with
  | [] => .error .emptyNumber
  | ['0'] => .ok 0
  | '0' :: 'b' :: digits => orBadValue (IntegerText.inBase? 2 digits)
  | '0' :: 'x' :: digits => orBadValue (IntegerText.inBase? 16 digits)
  | '0' :: _ => orBadValue (IntegerText.inBase? 8 cs)
  | _ => do
    let groups ← (Text.splitOn ':' cs).mapM fun group => orBadValue (IntegerText.inBase? 10 group)
    return groupSum groups.reverse

def intOf (text : String) : Except Fault Value := do
  let cs := withoutUnderscores text.toList
  if cs.isEmpty then throw .emptyNumber
  let n ← magnitudeOf (dropSign cs)
  return .int (if cs.head? = some '-' then -n else n)

/-- Groups to the base of sixty, the least one first; each step is rounded. -/
def floatGroups (sum : Binary64) (base : Nat) : List Binary64 → Except Fault Binary64
  | [] => .ok sum
  | x :: groups =>
    match Binary64.ofInt? base with
    | some factor => floatGroups (sum.add (x.mul factor)) (base * 60) groups
    | none => .error .outOfRange

def doubleOf (cs : List Char) : Except Fault Binary64 :=
  if cs == ".inf".toList then .ok (.infinite false)
  else if cs == ".nan".toList then .ok .nan
  else if cs.contains ':' then do
    let groups ← (Text.splitOn ':' cs).mapM fun group => orBadValue (DecimalText.parse? group)
    floatGroups (.zero false) 1 groups.reverse
  else orBadValue (DecimalText.parse? cs)

def negate (x : Binary64) : Binary64 := x.mul (.ofInt (-1))

def floatOf (text : String) : Except Fault Value := do
  let cs := Text.lower (withoutUnderscores text.toList)
  if cs.isEmpty then throw .emptyNumber
  let x ← doubleOf (dropSign cs)
  return .float (if cs.head? = some '-' then negate x else x)

def momentOf (text : String) : Except Fault Value :=
  match Moment.parse? text.toList with
  | none => .error .noSuchField
  | some m => if m.isValid then .ok (.moment m.text) else .error .badValue

def sextet? (c : Char) : Option Nat :=
  if 'A' ≤ c ∧ c ≤ 'Z' then some (c.toNat - 65)
  else if 'a' ≤ c ∧ c ≤ 'z' then some (c.toNat - 71)
  else if c.isDigit then some (c.toNat + 4)
  else if c = '+' then some 62
  else if c = '/' then some 63
  else none

/-- Bytes from groups of four characters: `place` characters of the group are read, `bits` are left
of the last one and `pads` of the padding are seen. Other characters do not count. -/
def unpack (place bits pads : Nat) (bytes : List Nat) : List Char → Option (List Nat)
  | [] => if place = 0 then some bytes.reverse else none
  | c :: cs =>
    if c = '=' then
      if 2 ≤ place ∧ 4 ≤ place + pads + 1 then some bytes.reverse
      else unpack place bits (if 2 ≤ place then pads + 1 else pads) bytes cs
    else
      match sextet? c with
      | none => unpack place bits pads bytes cs
      | some n =>
        if place = 0 then unpack 1 n 0 bytes cs
        else if place = 1 then unpack 2 (n % 16) 0 ((bits * 4 + n / 16) :: bytes) cs
        else if place = 2 then unpack 3 (n % 4) 0 ((bits * 16 + n / 4) :: bytes) cs
        else unpack 0 0 0 ((bits * 64 + n) :: bytes) cs

def bytesOf (text : String) : Except Fault Value :=
  if text.toList.all (·.toNat < 128) then
    match unpack 0 0 0 [] text.toList with
    | some bytes => .ok (.bytes bytes)
    | none => .error .malformedYaml
  else .error .malformedYaml

def scalarValue (tag : Tag) (text : String) : Except Fault Value :=
  match tag with
  | .null => .ok .null
  | .bool => boolOf text
  | .int => intOf text
  | .float => floatOf text
  | .moment => momentOf text
  | .binary => bytesOf text
  | .text => .ok (.text text)
  | _ => .error .malformedYaml

end PromptPack.Yaml
