import PromptPack.Document.Json.Reader
import PromptPack.Document.Yaml.Cursor
import PromptPack.Text.Utf8

/-! What stands in front of a node or a document: anchors, aliases, tags and directives. -/

namespace PromptPack.Yaml

structure TagName where
  handle : Option String
  suffix : String
deriving DecidableEq, Repr

inductive Directive where
  | version (major : Nat)
  | handle (name expansion : String)
  | other
deriving DecidableEq, Repr

def isNameChar (c : Char) : Bool := c.isAlphanum || c == '-' || c == '_'

def isUriChar (c : Char) : Bool :=
  c.isAlphanum || "-;/?:@&=+$,_.!~*'()[]".toList.contains c

def anchorName (here : Cursor) : Except Fault (String × Cursor) :=
  let name := here.takeWhile isNameChar
  let here := here.skip name.length
  let c := here.peek
  if name.isEmpty || !(isWideGap c || "?:,]\x7d%@\x60".toList.contains c) then .error .malformedYaml
  else .ok (String.ofList name, here)

def uriEscapes : Nat → List Nat → Cursor → Except Fault (List Nat × Cursor)
  | 0, bytes, here => .ok (bytes.reverse, here)
  | fuel + 1, bytes, here =>
    if here.peek == '%' then
      match Json.hexValue? (here.peekAt 1), Json.hexValue? (here.peekAt 2) with
      | some high, some low => uriEscapes fuel ((16 * high + low) :: bytes) (here.skip 3)
      | _, _ => .error .malformedYaml
    else .ok (bytes.reverse, here)

def uriRest : Nat → List Char → Cursor → Except Fault (List Char × Cursor)
  | 0, text, here => .ok (text, here)
  | fuel + 1, text, here =>
    if here.peek == '%' then
      match uriEscapes (here.rest.length + 1) [] here with
      | .error fault => .error fault
      | .ok (bytes, here) =>
        match Text.Utf8.decode bytes with
        | .ok cs => uriRest fuel (text ++ cs) here
        | .error _ => .error .malformedYaml
    else if isUriChar here.peek then uriRest fuel (text ++ [here.peek]) here.next
    else .ok (text, here)

def uri (here : Cursor) : Except Fault (String × Cursor) := do
  let (text, here) ← uriRest (here.rest.length + 1) [] here
  if text.isEmpty then throw .malformedYaml
  return (String.ofList text, here)

/-- A handle: one exclamation mark, or a name between two of them. -/
def tagHandle (here : Cursor) : Except Fault (String × Cursor) :=
  if here.peek != '!' then .error .malformedYaml
  else
    let name := here.next.takeWhile isNameChar
    let last := here.skip (name.length + 1)
    if last.peek == '!' then .ok (String.ofList ('!' :: name ++ ['!']), last.next)
    else if here.peekAt 1 == ' ' then .ok ("!", here.next)
    else .error .malformedYaml

def hasHandle (here : Cursor) : Bool :=
  (here.next.rest.takeWhile fun c => !isGap c).contains '!'

def shorthandTag (here : Cursor) : Except Fault (TagName × Cursor) := do
  let (handle, here) ← if hasHandle here then tagHandle here else pure ("!", here.next)
  let (suffix, here) ← uri here
  return (⟨some handle, suffix⟩, here)

def verbatimTag (here : Cursor) : Except Fault (TagName × Cursor) := do
  let (suffix, here) ← uri (here.skip 2)
  if here.peek != '>' then throw .malformedYaml
  return (⟨none, suffix⟩, here.next)

def tagName (here : Cursor) : Except Fault (TagName × Cursor) := do
  let c := here.peekAt 1
  let (name, here) ←
    if c == '<' then verbatimTag here
    else if isWideGap c then pure (⟨none, "!"⟩, here.next)
    else shorthandTag here
  if isGap here.peek then return (name, here) else throw .malformedYaml

def directiveNumber (here : Cursor) : Except Fault (Nat × Cursor) :=
  let digits := here.takeWhile Char.isDigit
  if digits.isEmpty then .error .malformedYaml
  else .ok (Json.digitsValue digits, here.skip digits.length)

def versionDirective (here : Cursor) : Except Fault (Directive × Cursor) := do
  let (major, here) ← directiveNumber here.skipBlanks
  if here.peek != '.' then throw .malformedYaml
  let (_, here) ← directiveNumber here.next
  if isGap here.peek then return (.version major, here) else throw .malformedYaml

def handleDirective (here : Cursor) : Except Fault (Directive × Cursor) := do
  let (handle, here) ← tagHandle here.skipBlanks
  if here.peek != ' ' then throw .malformedYaml
  let (expansion, here) ← uri here.skipBlanks
  if isGap here.peek then return (.handle handle expansion, here) else throw .malformedYaml

def directive (here : Cursor) : Except Fault (Directive × Cursor) := do
  let name := here.takeWhile isNameChar
  let here := here.skip name.length
  if name.isEmpty || !isGap here.peek then throw .malformedYaml
  let (found, here) ←
    if name == "YAML".toList then versionDirective here
    else if name == "TAG".toList then handleDirective here
    else pure (.other, here.skipWhile fun c => !isBreak c)
  let here := here.skipBlanks.skipComment
  match here.lineBreak? with
  | some (_, here) => return (found, here)
  | none => if here.rest.isEmpty then return (found, here) else throw .malformedYaml

end PromptPack.Yaml
