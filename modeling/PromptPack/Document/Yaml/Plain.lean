import PromptPack.Document.Yaml.Quoted

/-! Scalars without quotes. They end at a comment, before a colon with a gap behind it and, inside
flow collections, at their punctuation; in a block they go on as long as their lines are
indented. -/

namespace PromptPack.Yaml

def isFlowMark (c : Char) : Bool :=
  c == ',' || c == '[' || c == ']' || c == '\x7b' || c == '\x7d'

def stopsPlain (inFlow : Bool) (here : Cursor) : Bool :=
  let c := here.peek
  isWideGap c ||
    (c == ':' && (isWideGap (here.peekAt 1) || (inFlow && isFlowMark (here.peekAt 1)))) ||
    (inFlow && (isFlowMark c || c == '?'))

def plainRun (inFlow : Bool) : Nat → List Char → Cursor → List Char × Cursor
  | 0, run, here => (run.reverse, here)
  | fuel + 1, run, here =>
    if stopsPlain inFlow here then (run.reverse, here)
    else plainRun inFlow fuel (here.peek :: run) here.next

/-- The line breaks behind the first one; nothing when a document ends there. -/
def plainBreaks : Nat → List Char → Cursor → Option (List Char) × Cursor
  | 0, _, here => (none, here)
  | fuel + 1, breaks, here =>
    if here.isSeparator then (none, here)
    else
      let here := here.skipBlanks
      match here.lineBreak? with
      | some (c, here) => plainBreaks fuel (c :: breaks) here
      | none => (some breaks.reverse, here)

/-- The space behind a run: its text, whether it has a line break, and the place behind it. -/
def plainSpace (here : Cursor) : List Char × Bool × Cursor :=
  let blanks := here.takeWhile (· == ' ')
  let here := here.skipBlanks
  match here.lineBreak? with
  | some (c, here) =>
    match plainBreaks (here.rest.length + 1) [] here with
    | (some others, here) => (foldBreak c others, true, here)
    | (none, here) => ([], true, here)
  | none => (blanks, false, here)

structure PlainScalar where
  text : List Char
  /-- Whether a line break follows the scalar or lies in it behind its last run. -/
  endsLine : Bool
  after : Cursor

def plainRest (inFlow : Bool) (indent : Int) :
    Nat → (text space : List Char) → (brokeLine : Bool) → Cursor → PlainScalar
  | 0, text, _, brokeLine, here => ⟨text, brokeLine, here⟩
  | fuel + 1, text, space, brokeLine, here =>
    if here.peek == '#' then ⟨text, brokeLine, here⟩
    else
      let (run, here) := plainRun inFlow (here.rest.length + 1) [] here
      if run.isEmpty then ⟨text, brokeLine, here⟩
      else
        let text := text ++ space ++ run
        let (space, brokeLine, here) := plainSpace here
        if space.isEmpty || here.peek == '#' || (!inFlow && (here.column : Int) < indent) then
          ⟨text, brokeLine, here⟩
        else plainRest inFlow indent fuel text space brokeLine here

def startsPlain (inFlow : Bool) (here : Cursor) : Bool :=
  let c := here.peek
  !(isWideGap c || "-?:,[]\x7b\x7d#&*!|>'\"%@\x60".toList.contains c) ||
    (!isWideGap (here.peekAt 1) && (c == '-' || (!inFlow && (c == '?' || c == ':'))))

def plainScalar (inFlow : Bool) (indent : Int) (here : Cursor) : PlainScalar :=
  plainRest inFlow (indent + 1) (here.rest.length + 1) [] [] false here

end PromptPack.Yaml
