import PromptPack.Budget.Ceiling
import PromptPack.Config.Settings

/-! The configuration of a packing. Any document that is a mapping makes one, so its fields are
values; `validate` names what is wrong with them. -/

namespace PromptPack

structure PackConfig where
  modelProfile : Value := .text "claude-opus-4"
  numPacks : Value := .int 1
  outputFormat : Value := .text "plaintext"
  maxTokensPerFile : Value := .null
  optimization : Settings := {}
  debounceMs : Value := .int 150
  profiles : List Value := []
deriving Repr, Inhabited

namespace PackConfig

def outputFormats : List Value := [.text "plaintext", .text "markdown", .text "xml"]

/-- Settings from the field of a document; one that does not count as true stands for none. -/
def optimizationOf (entries : List (Value × Value)) : Except Fault Settings :=
  match Value.field? entries "optimization" with
  | none => .ok {}
  | some value => if value.truthy then Settings.ofValue value else .ok {}

def profilesOf (entries : List (Value × Value)) : Except Fault (List Value) :=
  match Value.field? entries "profiles" with
  | none => .ok []
  | some value =>
    if value.truthy then
      match value.items? with
      | some items => .ok items
      | none => .error .wrongType
    else .ok []

def ofValue : Value → Except Fault PackConfig
  | .map entries => do
    let optimization ← optimizationOf entries
    let profiles ← profilesOf entries
    let get (name : String) (default : Value) := (Value.field? entries name).getD default
    return {
      modelProfile := get "model_profile" (.text "claude-opus-4")
      numPacks := get "num_packs" (.int 1)
      outputFormat := get "output_format" (.text "plaintext")
      maxTokensPerFile := get "max_tokens_per_file" .null
      optimization
      debounceMs := get "debounce_ms" (.int 150)
      profiles }
  | _ => .error .noSuchField

/-- A configuration from a whole document; an empty document stands for the defaults. A fault that
concerns a value is reported for the source, without a reason if it has no wording here. -/
def ofDocument (source : String) : Value → Except Fault PackConfig
  | .null => .ok {}
  | .map entries =>
    match ofValue (.map entries) with
    | .ok config => .ok config
    | .error fault =>
      .error (if fault.concernsValue then .invalidConfig source fault.message? else fault)
  | _ => .error (.invalidConfig source (some "top-level document must be a mapping"))

def toValue (config : PackConfig) : Except Fault Value := do
  let profiles ← config.profiles.mapM Value.toEntries
  return .map [
    (.text "model_profile", config.modelProfile),
    (.text "num_packs", config.numPacks),
    (.text "output_format", config.outputFormat),
    (.text "max_tokens_per_file", config.maxTokensPerFile),
    (.text "optimization", config.optimization.toValue),
    (.text "debounce_ms", config.debounceMs),
    (.text "profiles", .list (profiles.map .map))]

def same (a b : PackConfig) : Bool :=
  a.modelProfile.same b.modelProfile && a.numPacks.same b.numPacks &&
    a.outputFormat.same b.outputFormat && a.maxTokensPerFile.same b.maxTokensPerFile &&
    a.optimization.same b.optimization && a.debounceMs.same b.debounceMs &&
    Value.sameItems a.profiles b.profiles

def number (value : Value) : Except Fault Number :=
  match value.toNumber? with
  | some n => .ok n
  | none => .error .wrongType

def debounceSeconds (config : PackConfig) : Except Fault Binary64 := do
  let milliseconds := (Number.int 0).max (← number config.debounceMs)
  let duration ← Budget.toDouble milliseconds
  return duration.div (.ofInt 1000)

def issueOf (found : Bool) (value : Value) (text : String → String) : Except Fault (List String) :=
  if found then do return [text (← value.display)] else .ok []

def profileIssues (seen : List Value) (id : Value) (entries : List (Value × Value)) :
    Except Fault (List String) := do
  if !id.isKey then throw .wrongType
  let duplicate ← issueOf (seen.any id.same) id fun shown =>
    s!"Duplicate custom profile id '{shown}'"
  let contextWindow ← number ((Value.field? entries "context_window_tokens").getD (.int 0))
  let window ← issueOf (contextWindow.le (.int 0)) id fun shown =>
    s!"Profile '{shown}': context_window_tokens must be positive"
  return duplicate ++ window

def allProfileIssues (seen : List Value) : List Value → Except Fault (List String)
  | [] => .ok []
  | .map entries :: rest =>
    let id := (Value.field? entries "id").getD .null
    if id.truthy then do
      let issues ← profileIssues seen id entries
      return issues ++ (← allProfileIssues (id :: seen) rest)
    else do
      return "Custom profile without an id" :: (← allProfileIssues seen rest)
  | _ :: _ => .error .noSuchField

/-- What is wrong with a configuration; a field of a type that cannot be judged is a fault. -/
def validate (config : PackConfig) : Except Fault (List String) := do
  let packs := if (← number config.numPacks).lt (.int 1) then ["num_packs must be at least 1"] else []
  let isFormat := outputFormats.any config.outputFormat.same
  let format ← issueOf (!isFormat) config.outputFormat fun shown =>
    s!"Invalid output_format '{shown}'"
  let debounce :=
    if (← number config.debounceMs).lt (.int 0) then ["debounce_ms must be non-negative"] else []
  let settings := config.optimization
  let entry :=
    if settings.deadCodeElimination.truthy && !settings.entryPoint.truthy then
      ["dead_code_elimination requires an entry_point"]
    else []
  return packs ++ format ++ debounce ++ entry ++ (← allProfileIssues [] config.profiles)

end PackConfig

end PromptPack
