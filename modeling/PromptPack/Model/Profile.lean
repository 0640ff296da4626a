import PromptPack.Budget.Ceiling
import PromptPack.Numeric.IntegerText
import PromptPack.Tokens.Strategy

/-! What is known about a target model: its context window and how its tokens are counted. -/

namespace PromptPack

namespace Value

def toInteger : Value → Except Fault Int
  | .bool b => .ok b.toNat
  | .int n => .ok n
  | .float x => Budget.integerPart x Binary64.truncate?
  | .text s =>
    match IntegerText.parse? s with
    | some n => .ok n
    | none => .error .badValue
  | _ => .error .wrongType

end Value

structure Profile where
  id : Value
  name : Value
  contextWindow : Number
  maxAttachments : Int := 20
  tokenizer : String := "cl100k"
  /-- A ceiling of its own, in place of the share of the context window. -/
  tokensPerFile : Value := .null
deriving Repr

namespace Profile

def tokenizers : List String := ["cl100k", "o200k", "gemini", "claude"]

/-- Counts for these come from the encodings of other models. -/
def approximateTokenizers : List String := ["claude", "gemini"]

def strategyOf (tokenizer : String) : Strategy :=
  if tokenizer = "o200k" then .openai else .approx

def isApproximateTokenizer (tokenizer : String) : Bool := approximateTokenizers.contains tokenizer

def strategy (profile : Profile) : Strategy := strategyOf profile.tokenizer

def isApproximate (profile : Profile) : Bool := isApproximateTokenizer profile.tokenizer

def required (entries : List (Value × Value)) (name : String) : Except Fault Value :=
  match Value.field? entries name with
  | some value => .ok value
  | none => .error (.missingField name)

def refuseTokenizer (tokenizer id : Value) : Except Fault String := do
  throw (.unknownTokenizer (← tokenizer.display) (← id.display))

def tokenizerOf (entries : List (Value × Value)) : Except Fault String :=
  let tokenizer := (Value.field? entries "tokenizer").getD (.text "cl100k")
  let refused := refuseTokenizer tokenizer ((Value.field? entries "id").getD .null)
  match tokenizer with
  | .text name => if tokenizers.contains name then .ok name else refused
  | _ => refused

/-- A profile from a document. The tokenizer is judged first, then the fields in order. -/
def ofValue : Value → Except Fault Profile
  | .map entries => do
    let tokenizer ← tokenizerOf entries
    let id ← required entries "id"
    let contextWindow ← (← required entries "context_window_tokens").toInteger
    let maxAttachments ← ((Value.field? entries "max_attachments").getD (.int 20)).toInteger
    return {
      id
      name := (Value.field? entries "name").getD id
      contextWindow := .int contextWindow
      maxAttachments
      tokenizer
      tokensPerFile := (Value.field? entries "tokens_per_file").getD .null }
  | _ => .error .noSuchField

def known (id name : String) (contextWindow : Int) (tokenizer : String) : Profile :=
  { id := .text id, name := .text name, contextWindow := .int contextWindow, tokenizer }

end Profile

end PromptPack
