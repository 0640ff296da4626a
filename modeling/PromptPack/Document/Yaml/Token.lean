import PromptPack.Document.Yaml.BlockScalar
import PromptPack.Document.Yaml.Plain
import PromptPack.Document.Yaml.Property

/-! The tokens of a YAML text. Indentation becomes tokens that open and close block collections. A
key without its indicator is known only at its colon, so each place where one may start is kept
as a candidate and the tokens in front of the key are put in afterwards. -/

namespace PromptPack.Yaml

inductive Token where
  | directive (found : Directive)
  | documentStart
  | documentEnd
  | blockSequenceStart
  | blockMappingStart
  | blockEnd
  | flowSequenceStart
  | flowSequenceEnd
  | flowMappingStart
  | flowMappingEnd
  | blockEntry
  | flowEntry
  | key
  | value
  | alias (name : String)
  | anchor (name : String)
  | tag (name : TagName)
  | scalar (text : String) (plain : Bool)
deriving DecidableEq, Repr

/-- A place where a key may have started: the tokens before it, and whether it has to be one. -/
structure Candidate where
  position : Nat
  index : Nat
  line : Nat
  column : Nat
  required : Bool
deriving Repr

def maxKeyLength : Nat := 1024

structure Scanner where
  here : Cursor
  /-- The tokens so far, the last one first. -/
  tokens : List Token := []
  depth : Nat := 0
  /-- The column of the innermost block collection. -/
  indent : Int := -1
  outer : List Int := []
  keyAllowed : Bool := true
  candidates : List (Nat × Candidate) := []

namespace Scanner

def inFlow (s : Scanner) : Bool := s.depth != 0

def emit (token : Token) (s : Scanner) : Scanner := { s with tokens := token :: s.tokens }

def emitAt (position : Nat) (token : Token) (s : Scanner) : Scanner :=
  let later := s.tokens.length - position
  { s with tokens := s.tokens.take later ++ token :: s.tokens.drop later }

def advance (n : Nat) (s : Scanner) : Scanner := { s with here := s.here.skip n }

def allowKey (allowed : Bool) (s : Scanner) : Scanner := { s with keyAllowed := allowed }

/-- Closes the block collections that are deeper than the column. -/
def unwind (column : Int) : Nat → Scanner → Scanner
  | 0, s => s
  | fuel + 1, s =>
    if column < s.indent then
      unwind column fuel
        { s with
          tokens := .blockEnd :: s.tokens
          indent := s.outer.headD (-1)
          outer := s.outer.drop 1 }
    else s

def unwindTo (column : Int) (s : Scanner) : Scanner :=
  if s.inFlow then s else s.unwind column (s.outer.length + 1)

def openBlock (position : Nat) (column : Int) (token : Token) (s : Scanner) : Scanner :=
  if s.indent < column then
    { s.emitAt position token with indent := column, outer := s.indent :: s.outer }
  else s

/-- Drops the candidates that can be no key any more. -/
def dropStale (s : Scanner) : Except Fault Scanner :=
  let stale (c : Candidate) := c.line != s.here.line || maxKeyLength < s.here.index - c.index
  if s.candidates.any fun (_, c) => stale c && c.required then .error .malformedYaml
  else .ok { s with candidates := s.candidates.filter fun (_, c) => !stale c }

def dropCandidate (s : Scanner) : Except Fault Scanner :=
  if s.candidates.any fun (depth, c) => depth == s.depth && c.required then .error .malformedYaml
  else .ok { s with candidates := s.candidates.filter fun (depth, _) => depth != s.depth }

def keepCandidate (s : Scanner) : Except Fault Scanner :=
  if s.keyAllowed then do
    let required := !s.inFlow && s.indent == s.here.column
    let s ← s.dropCandidate
    let candidate : Candidate :=
      ⟨s.tokens.length, s.here.index, s.here.line, s.here.column, required⟩
    return { s with candidates := (s.depth, candidate) :: s.candidates }
  else .ok s

/-- Skips blanks, comments and line breaks; a line break in a block allows keys. -/
def skipToToken : Nat → Scanner → Scanner
  | 0, s => s
  | fuel + 1, s =>
    let here := s.here.skipBlanks.skipComment
    match here.lineBreak? with
    | some (_, here) =>
      skipToToken fuel { s with here, keyAllowed := s.keyAllowed || !s.inFlow }
    | none => { s with here }

def documentMark (token : Token) (s : Scanner) : Except Fault Scanner := do
  let s ← (s.unwindTo (-1)).dropCandidate
  return ((s.advance 3).emit token).allowKey false

def directiveToken (s : Scanner) : Except Fault Scanner := do
  let s ← (s.unwindTo (-1)).dropCandidate
  let (found, here) ← directive s.here.next
  return ({ s with here }.emit (.directive found)).allowKey false

def openFlow (token : Token) (s : Scanner) : Except Fault Scanner := do
  let s ← s.keepCandidate
  return { (s.advance 1).emit token with depth := s.depth + 1, keyAllowed := true }

def closeFlow (token : Token) (s : Scanner) : Except Fault Scanner := do
  if !s.inFlow then throw .malformedYaml
  let s ← s.dropCandidate
  return { (s.advance 1).emit token with depth := s.depth - 1, keyAllowed := false }

def flowEntry (s : Scanner) : Except Fault Scanner := do
  let s ← s.dropCandidate
  return ((s.advance 1).emit .flowEntry).allowKey true

def blockEntry (s : Scanner) : Except Fault Scanner := do
  if s.inFlow || !s.keyAllowed then throw .malformedYaml
  let s ← (s.openBlock s.tokens.length s.here.column .blockSequenceStart).dropCandidate
  return ((s.advance 1).emit .blockEntry).allowKey true

def keyMark (s : Scanner) : Except Fault Scanner := do
  if !s.inFlow && !s.keyAllowed then throw .malformedYaml
  let s := if s.inFlow then s else s.openBlock s.tokens.length s.here.column .blockMappingStart
  let s ← s.dropCandidate
  return ((s.advance 1).emit .key).allowKey !s.inFlow

/-- A colon behind a candidate makes it a key; any other colon follows a key with its indicator. -/
def valueMark (s : Scanner) : Except Fault Scanner := do
  match s.candidates.find? fun (depth, _) => depth == s.depth with
  | some (_, c) =>
    let s := { s with candidates := s.candidates.filter fun (depth, _) => depth != s.depth }
    let s := s.emitAt c.position .key
    let s := if s.inFlow then s else s.openBlock c.position c.column .blockMappingStart
    return ((s.advance 1).emit .value).allowKey false
  | none =>
    if !s.inFlow && !s.keyAllowed then throw .malformedYaml
    let s := if s.inFlow then s else s.openBlock s.tokens.length s.here.column .blockMappingStart
    let s ← s.dropCandidate
    return ((s.advance 1).emit .value).allowKey !s.inFlow

/-- A token that may start a key; `read` gives it and the place behind it. -/
def keyStart (read : Cursor → Except Fault (Token × Cursor)) (s : Scanner) :
    Except Fault Scanner := do
  let s ← s.keepCandidate
  let (token, here) ← read s.here
  return ({ s with here }.emit token).allowKey false

def blockText (folded : Bool) (s : Scanner) : Except Fault Scanner := do
  let s ← s.dropCandidate
  let (text, here) ← blockScalar folded s.indent s.here.next
  return ({ s with here }.emit (.scalar text false)).allowKey true

def plainText (s : Scanner) : Except Fault Scanner := do
  let s ← s.keepCandidate
  let found := plainScalar s.inFlow s.indent s.here
  return ({ s with here := found.after }.emit (.scalar (String.ofList found.text) true)).allowKey
    found.endsLine

def readAs {α : Type} (token : α → Token) (read : Cursor → Except Fault (α × Cursor))
    (here : Cursor) : Except Fault (Token × Cursor) := do
  let (found, here) ← read here
  return (token found, here)

def quotedToken : Cursor → Except Fault (Token × Cursor) :=
  readAs (fun text => .scalar text false) quotedScalar

def step (s : Scanner) : Except Fault Scanner :=
  let c := s.here.peek
  let gapBehind := isWideGap (s.here.peekAt 1)
  if c == '%' && s.here.column == 0 then s.directiveToken
  else if s.here.column == 0 && s.here.isMark '-' then s.documentMark .documentStart
  else if s.here.column == 0 && s.here.isMark '.' then s.documentMark .documentEnd
  else if c == '[' then s.openFlow .flowSequenceStart
  else if c == '\x7b' then s.openFlow .flowMappingStart
  else if c == ']' then s.closeFlow .flowSequenceEnd
  else if c == '\x7d' then s.closeFlow .flowMappingEnd
  else if c == ',' then s.flowEntry
  else if c == '-' && gapBehind then s.blockEntry
  else if c == '?' && (s.inFlow || gapBehind) then s.keyMark
  else if c == ':' && (s.inFlow || gapBehind) then s.valueMark
  else if c == '*' then s.keyStart (readAs .alias fun here => anchorName here.next)
  else if c == '&' then s.keyStart (readAs .anchor fun here => anchorName here.next)
  else if c == '!' then s.keyStart (readAs .tag tagName)
  else if c == '|' && !s.inFlow then s.blockText false
  else if c == '>' && !s.inFlow then s.blockText true
  else if c == '\'' || c == '"' then s.keyStart quotedToken
  else if startsPlain s.inFlow s.here then s.plainText
  else .error .malformedYaml

def run : Nat → Scanner → Except Fault (List Token)
  | 0, _ => .error .malformedYaml
  | fuel + 1, s => do
    let s ← (s.skipToToken (s.here.rest.length + 1)).dropStale
    let s := s.unwindTo s.here.column
    if s.here.rest.isEmpty then
      let s ← (s.unwindTo (-1)).dropCandidate
      return s.tokens.reverse
    else run fuel (← s.step)

end Scanner

/-- The tokens of a text. A byte order mark in front of it does not count. -/
def tokens (cs : List Char) : Except Fault (List Token) :=
  if cs.all isAllowed then
    let here := Cursor.ofText cs
    let here := if here.peek == orderMark then here.next else here
    Scanner.run (cs.length + 1) { here }
  else .error .malformedYaml

end PromptPack.Yaml
