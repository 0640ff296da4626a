import PromptPack.Document.Yaml.ScalarWriter

/-! Writing YAML in blocks of two blanks, keys in ascending order. A key stands on the line of its
colon unless it is empty, broken or long; then a question mark goes in front of it. -/

namespace PromptPack.Yaml

/-- Doubles; a number without a point would not read back as one. -/
def floats : FloatStyle where
  nan := ".nan"
  infinity := ".inf"
  negativeInfinity := "-.inf"
  pointBeforeExponent := true

def plainText? : Value → Option String
  | .null => some "null"
  | .bool true => some "true"
  | .bool false => some "false"
  | .int n => some (toString n)
  | .float x => some (floats.text x)
  | .moment iso => some iso
  | _ => none

def scalar? : Value → Option (Style × List Char)
  | .text s => some (.ofText s, s.toList)
  | value => (plainText? value).map fun s => (.plain, s.toList)

/-- The short name of a scalar's tag counts for the length of a key. -/
def tagLength : Value → Nat
  | .text _ | .int _ => 5
  | .float _ => 7
  | _ => 6

def maxSimpleKey : Nat := 128

def isSimpleKey (key : Value) (cs : List Char) : Bool :=
  !cs.isEmpty && !isMultiline cs && tagLength key + cs.length < maxSimpleKey

/-- Numbers or texts in ascending order; keys of different kinds have none. -/
def keyLe? (a b : Value) : Option Bool :=
  match a, b with
  | .text s, .text t => some (s ≤ t)
  | a, b =>
    match a.toNumber?, b.toNumber? with
    | some m, some n => some (!n.lt m)
    | _, _ => none

def sortEntries (entries : List (Value × Value)) : List (Value × Value) :=
  if entries.all fun a => entries.all fun b => (keyLe? a.1 b.1).isSome then
    entries.mergeSort fun a b => (keyLe? a.1 b.1).getD false
  else entries

/-- What stands in front of a value decides how it goes on. -/
inductive Lead where
  /-- A dash, a question mark or the colon of a long key: blocks start on the same line. -/
  | indicator
  /-- The colon of a key on its line: blocks start on a line of their own. -/
  | key
deriving DecidableEq

def writeScalar (column indent : Nat) (style : Style) (cs : List Char) : List Char :=
  ' ' :: writeStyled style ⟨column + 1, indent + 2, true⟩ cs

def writeKey? (indent : Nat) (key : Value) : Option (List Char × Lead × Nat) := do
  let (style, cs) ← scalar? key
  if isSimpleKey key cs then
    let written := writeStyled style ⟨indent, indent + 2, false⟩ cs
    return (written ++ [':'], .key, indent + written.length + 1)
  else
    let written := writeScalar (indent + 1) indent style cs
    return ('?' :: written ++ lineStart indent ++ [':'], .indicator, indent + 1)

mutual

/-- A value behind its lead, in a block of the given indentation; the line has `column` characters
so far. -/
def writeValue? (lead : Lead) (column indent : Nat) : Value → Option (List Char)
  | .list [] => some [' ', '[', ']']
  | .list items =>
    match lead with
    | .indicator => (writeItems? (indent + 2) items).map (' ' :: ·)
    | .key => (writeItems? indent items).map (lineStart indent ++ ·)
  | .map [] => some [' ', '\x7b', '\x7d']
  | .map entries =>
    match lead with
    | .indicator => (writeEntries? (indent + 2) entries).map (' ' :: ·)
    | .key => (writeEntries? (indent + 2) entries).map (lineStart (indent + 2) ++ ·)
  | value => (scalar? value).map fun (style, cs) => writeScalar column indent style cs

def writeItems? (indent : Nat) : List Value → Option (List Char)
  | [] => some []
  | [item] => do return '-' :: (← writeValue? .indicator (indent + 1) indent item)
  | item :: items => do
    return '-' :: (← writeValue? .indicator (indent + 1) indent item) ++
      lineStart indent ++ (← writeItems? indent items)

def writeEntries? (indent : Nat) : List (Value × Value) → Option (List Char)
  | [] => some []
  | [(key, value)] => do
    let (front, lead, column) ← writeKey? indent key
    return front ++ (← writeValue? lead column indent value)
  | (key, value) :: entries => do
    let (front, lead, column) ← writeKey? indent key
    return front ++ (← writeValue? lead column indent value) ++ lineStart indent ++
      (← writeEntries? indent entries)

end

mutual

def sorted : Value → Value
  | .list items => .list (sortedItems items)
  | .map entries => .map (sortEntries (sortedEntries entries))
  | value => value

def sortedItems : List Value → List Value
  | [] => []
  | item :: items => sorted item :: sortedItems items

def sortedEntries : List (Value × Value) → List (Value × Value)
  | [] => []
  | (key, value) :: entries => (key, sorted value) :: sortedEntries entries

end

def write (document : Value) : Except Fault String :=
  match sorted document with
  | .map [] => .ok "\x7b\x7d\n"
  | .map entries =>
    match writeEntries? 0 entries with
    | some cs => .ok (String.ofList (cs ++ ['\n']))
    | none => .error .wrongType
  | _ => .error .wrongType

end PromptPack.Yaml
