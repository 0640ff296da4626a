import PromptPack.Document.Yaml.Cursor

/-! Scalars that are indented blocks. Literal ones keep their line breaks; folded ones join lines
that start with text. The header says how many of the last line breaks are kept. -/

namespace PromptPack.Yaml

inductive Chomping where
  | strip | clip | keep
deriving DecidableEq, Repr

structure BlockHeader where
  chomping : Chomping := .clip
  increment : Option Nat := none

def chomping? : Char → Option Chomping
  | '+' => some .keep
  | '-' => some .strip
  | _ => none

def increment? (c : Char) : Option Nat := if c.isDigit then some (c.toNat - 48) else none

/-- The two indicators, in either order. -/
def blockIndicators (here : Cursor) : Except Fault (BlockHeader × Cursor) :=
  let (header, here) : BlockHeader × Cursor :=
    match chomping? here.peek with
    | some chomping =>
      match increment? here.next.peek with
      | some n => (⟨chomping, some n⟩, here.skip 2)
      | none => (⟨chomping, none⟩, here.next)
    | none =>
      match increment? here.peek with
      | some n =>
        match chomping? here.next.peek with
        | some chomping => (⟨chomping, some n⟩, here.skip 2)
        | none => (⟨.clip, some n⟩, here.next)
      | none => ({}, here)
  if header.increment == some 0 || !isGap here.peek then .error .malformedYaml else .ok (header, here)

def blockHeader (here : Cursor) : Except Fault (BlockHeader × Cursor) := do
  let (header, here) ← blockIndicators here
  let here := here.skipBlanks.skipComment
  match here.lineBreak? with
  | some (_, here) => return (header, here)
  | none => if here.rest.isEmpty then return (header, here) else throw .malformedYaml

/-- The leading empty lines, when the indentation is not known, and the deepest column in them. -/
def leadingBreaks : Nat → List Char → Nat → Cursor → List Char × Nat × Cursor
  | 0, breaks, deepest, here => (breaks.reverse, deepest, here)
  | fuel + 1, breaks, deepest, here =>
    if here.peek == ' ' then leadingBreaks fuel breaks (max deepest here.next.column) here.next
    else
      match here.lineBreak? with
      | some (c, here) => leadingBreaks fuel (c :: breaks) deepest here
      | none => (breaks.reverse, deepest, here)

def skipIndent (indent : Nat) (here : Cursor) : Cursor :=
  here.skip (min (here.takeWhile (· == ' ')).length (indent - here.column))

def blockBreaks (indent : Nat) : Nat → List Char → Cursor → List Char × Cursor
  | 0, breaks, here => (breaks.reverse, here)
  | fuel + 1, breaks, here =>
    let here := skipIndent indent here
    match here.lineBreak? with
    | some (c, here) => blockBreaks indent fuel (c :: breaks) here
    | none => (breaks.reverse, here)

def isInset (c : Char) : Bool := c == ' ' || c == '\t'

/-- What stands between two lines: the break of the first and the empty lines behind it. -/
def lineJoint (folded inset : Bool) (lineBreak : List Char) (breaks : List Char) : List Char :=
  if folded && lineBreak == ['\n'] && !inset then (if breaks.isEmpty then [' '] else breaks)
  else lineBreak ++ breaks

def lastBreaks (chomping : Chomping) (lineBreak breaks : List Char) : List Char :=
  match chomping with
  | .strip => []
  | .clip => lineBreak
  | .keep => lineBreak ++ breaks

def blockLines (folded : Bool) (chomping : Chomping) (indent : Nat) :
    Nat → List Char → Cursor → List Char × Cursor
  | 0, text, here => (text, here)
  | fuel + 1, text, here =>
    let inset := isInset here.peek
    let line := here.takeWhile fun c => !isBreak c
    let here := here.skip line.length
    let (lineBreak, here) :=
      match here.lineBreak? with
      | some (c, here) => ([c], here)
      | none => ([], here)
    let (breaks, here) := blockBreaks indent (here.rest.length + 1) [] here
    let text := text ++ line
    if here.column == indent && !here.rest.isEmpty then
      blockLines folded chomping indent fuel
        (text ++ lineJoint folded (inset || isInset here.peek) lineBreak breaks) here
    else (text ++ lastBreaks chomping lineBreak breaks, here)

/-- A block scalar behind its style indicator, in a parent of the given indentation. -/
def blockScalar (folded : Bool) (parent : Int) (here : Cursor) : Except Fault (String × Cursor) := do
  let (header, here) ← blockHeader here
  let least := (max (parent + 1) 1).toNat
  let (breaks, indent, here) :=
    match header.increment with
    | some increment =>
      let indent := least + increment - 1
      let (breaks, here) := blockBreaks indent (here.rest.length + 1) [] here
      (breaks, indent, here)
    | none =>
      let (breaks, deepest, here) := leadingBreaks (here.rest.length + 1) [] 0 here
      (breaks, max least deepest, here)
  if here.column == indent && !here.rest.isEmpty then
    let (text, here) :=
      blockLines folded header.chomping indent (here.rest.length + 1) breaks here
    return (String.ofList text, here)
  else return (String.ofList (lastBreaks header.chomping [] breaks), here)

end PromptPack.Yaml
