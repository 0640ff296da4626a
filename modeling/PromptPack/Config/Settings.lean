import PromptPack.Document.Display

/-! The settings of the transforms and of pruning. They come from documents, so each is a value and
counts as on when the value counts as true. -/

namespace PromptPack

structure Settings where
  stripComments : Value := .bool false
  reduceWhitespace : Value := .bool false
  minifyMarkdown : Value := .bool false
  stripHeadings : Value := .bool false
  stripBlockquotes : Value := .bool false
  deadCodeElimination : Value := .bool false
  entryPoint : Value := .null
deriving Repr, Inhabited

namespace Settings

def pruningEnabled (settings : Settings) : Bool :=
  settings.deadCodeElimination.truthy && settings.entryPoint.truthy

def toEntries (settings : Settings) : List (String × Value) :=
  [ ("strip_comments", settings.stripComments),
    ("reduce_whitespace", settings.reduceWhitespace),
    ("minify_markdown", settings.minifyMarkdown),
    ("strip_headings", settings.stripHeadings),
    ("strip_blockquotes", settings.stripBlockquotes),
    ("dead_code_elimination", settings.deadCodeElimination),
    ("entry_point", settings.entryPoint) ]

def names : List String := (toEntries {}).map (·.1)

def same (a b : Settings) : Bool :=
  (a.toEntries.zip b.toEntries).all fun ((_, x), (_, y)) => x.same y

/-- What is given and is no setting, without repetitions and in ascending order. -/
def unknownNames (given : List String) : List String :=
  (given.filter fun name => !names.contains name).eraseDups.mergeSort

def named (entries : List (Value × Value)) : Settings :=
  let get (name : String) (default : Value) := (Value.field? entries name).getD default
  { stripComments := get "strip_comments" (.bool false)
    reduceWhitespace := get "reduce_whitespace" (.bool false)
    minifyMarkdown := get "minify_markdown" (.bool false)
    stripHeadings := get "strip_headings" (.bool false)
    stripBlockquotes := get "strip_blockquotes" (.bool false)
    deadCodeElimination := get "dead_code_elimination" (.bool false)
    entryPoint := get "entry_point" .null }

def text? : Value → Option String
  | .text s => some s
  | _ => none

/-- Settings from a document. Anything that can be gone through is searched for names that are no
settings, before it is asked whether it is a mapping. -/
def ofValue (value : Value) : Except Fault Settings :=
  match value.items?.bind (·.mapM text?) with
  | none => .error .wrongType
  | some given =>
    if unknownNames given ≠ [] then .error (.unknownSettings (unknownNames given))
    else
      match value with
      | .map entries => .ok (named entries)
      | _ => .error .wrongType

def toValue (settings : Settings) : Value :=
  .map (settings.toEntries.map fun (name, value) => (.text name, value))

end Settings

end PromptPack
