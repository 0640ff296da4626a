import PromptPack.Document.Display

/-! How tokens are counted, and which encodings that takes. -/

namespace PromptPack

inductive EncodingName where
  | cl100k | o200k
deriving DecidableEq, Repr

/-- `openai` counts with one encoding exactly; `approx` takes the largest count of two. -/
inductive Strategy where
  | openai | approx
deriving DecidableEq, Repr, Inhabited

namespace Strategy

def name : Strategy → String
  | .openai => "openai"
  | .approx => "approx"

def encodings : Strategy → List EncodingName
  | .openai => [.o200k]
  | .approx => [.cl100k, .o200k]

def ofValue : Value → Except Fault Strategy
  | .text "openai" => .ok .openai
  | .text "approx" => .ok .approx
  | value => do throw (.unknownStrategy (← value.display))

end Strategy

end PromptPack
