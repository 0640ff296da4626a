import PromptPack.Document.Json.Reader
import PromptPack.Document.Yaml.Cursor

/-! Scalars between quotes. A line break inside reads as a blank and further ones as themselves;
double quotes allow escapes. -/

namespace PromptPack.Yaml

def quotedBreaks : Nat → List Char → Cursor → Except Fault (List Char × Cursor)
  | 0, _, _ => .error .malformedYaml
  | fuel + 1, breaks, here =>
    if here.isSeparator then .error .malformedYaml
    else
      let here := here.skipWhile fun c => c == ' ' || c == '\t'
      match here.lineBreak? with
      | some (c, here) => quotedBreaks fuel (c :: breaks) here
      | none => .ok (breaks.reverse, here)

/-- Folds line breaks: a line feed before other text is a blank, before other breaks nothing. -/
def foldBreak (first : Char) (others : List Char) : List Char :=
  if first != '\n' then first :: others
  else if others.isEmpty then [' ']
  else others

def quotedSpace (here : Cursor) : Except Fault (List Char × Cursor) :=
  let isBlank := fun c => c == ' ' || c == '\t'
  let blanks := here.takeWhile isBlank
  let here := here.skipWhile isBlank
  match here.lineBreak? with
  | some (c, here) => do
    let (others, here) ← quotedBreaks (here.rest.length + 1) [] here
    return (foldBreak c others, here)
  | none => if here.rest.isEmpty then .error .malformedYaml else .ok (blanks, here)

def escapeChar? (c : Char) : Option Char :=
  match c with
  | '0' => some (Char.ofNat 0)
  | 'a' => some (Char.ofNat 7)
  | 'b' => some (Char.ofNat 8)
  | 't' | '\t' => some '\t'
  | 'n' => some '\n'
  | 'v' => some (Char.ofNat 11)
  | 'f' => some (Char.ofNat 12)
  | 'r' => some '\r'
  | 'e' => some (Char.ofNat 27)
  | ' ' => some ' '
  | '"' => some '"'
  | '\\' => some '\\'
  | '/' => some '/'
  | 'N' => some (Char.ofNat 0x85)
  | '_' => some (Char.ofNat 0xA0)
  | 'L' => some (Char.ofNat 0x2028)
  | 'P' => some (Char.ofNat 0x2029)
  | _ => none

def escapeWidth? : Char → Option Nat
  | 'x' => some 2
  | 'u' => some 4
  | 'U' => some 8
  | _ => none

/-- A code as a character; a surrogate has none of its own. -/
def codeChar (code : Nat) : Except Fault Char :=
  if code < 0x110000 then .ok (Json.unitChar code)
  else if code < 0x80000000 then .error .badValue
  else .error .outOfRange

def quotedEscape (here : Cursor) : Except Fault (List Char × Cursor) :=
  let c := here.peek
  match escapeChar? c, escapeWidth? c, here.lineBreak? with
  | some d, _, _ => .ok ([d], here.next)
  | none, some width, _ =>
    let digits := here.next.rest.take width
    match digits.mapM Json.hexValue? with
    | some values =>
      if values.length < width then .error .malformedYaml
      else do
        let d ← codeChar (values.foldl (fun n h => 16 * n + h) 0)
        return ([d], here.next.skip width)
    | none => .error .malformedYaml
  | none, none, some (_, here) => quotedBreaks (here.rest.length + 1) [] here
  | none, none, none => .error .malformedYaml

/-- The rest of a quoted scalar behind its opening quote; `text` is what is read, reversed. -/
def quotedRest (quote : Char) : Nat → List Char → Cursor → Except Fault (String × Cursor)
  | 0, _, _ => .error .malformedYaml
  | fuel + 1, text, here =>
    let c := here.peek
    if here.rest.isEmpty then .error .malformedYaml
    else if c == quote then
      if quote == '\'' && here.peekAt 1 == '\'' then quotedRest quote fuel ('\'' :: text) (here.skip 2)
      else .ok (String.ofList text.reverse, here.next)
    else if isWideGap c then
      match quotedSpace here with
      | .ok (space, here) => quotedRest quote fuel (space.reverse ++ text) here
      | .error fault => .error fault
    else if c == '\\' && quote == '"' then
      match quotedEscape here.next with
      | .ok (escaped, here) => quotedRest quote fuel (escaped.reverse ++ text) here
      | .error fault => .error fault
    else quotedRest quote fuel (c :: text) here.next

def quotedScalar (here : Cursor) : Except Fault (String × Cursor) :=
  quotedRest here.peek (here.rest.length + 1) [] here.next

end PromptPack.Yaml
