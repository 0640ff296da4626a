import PromptPack.Tokens.Count

/-! A token counter bound to one way of counting: a strategy, or the length alone. -/

namespace PromptPack

inductive TokenService where
  | encoded (strategy : Strategy)
  | estimated
deriving DecidableEq, Repr

namespace TokenService

def ofValue : Value → Except Fault TokenService
  | .text "estimate" => .ok .estimated
  | value => (Strategy.ofValue value).map .encoded

def countText (encodings : Encodings) (service : TokenService) (text : String) : Traced Nat :=
  match service with
  | .encoded strategy => Tokens.countText encodings strategy text
  | .estimated => pure (Budget.charEstimate text)

def countItem (encodings : Encodings) (service : TokenService) : Value → Except Fault (Traced Nat)
  | .text s => .ok (service.countText encodings s)
  | _ => .error .wrongType

def sum (counts : List (Traced Nat)) : Traced Nat :=
  counts.foldlM (fun total count => do return total + (← count)) 0

/-- A list or a mapping counts the sum of its texts; any other value counts as its own text. -/
def count (encodings : Encodings) (service : TokenService) : Value → Except Fault (Traced Nat)
  | .text s => .ok (service.countText encodings s)
  | .list items => (items.mapM (service.countItem encodings)).map sum
  | .map entries => (entries.mapM fun entry => service.countItem encodings entry.2).map sum
  | value => do return service.countText encodings (← value.display)

/-- Whether counts are not those of the model's own tokenizer. -/
def isApproximate (service : TokenService) : Bool := service != .encoded .openai

def strategyName : TokenService → String
  | .encoded strategy => strategy.name
  | .estimated => "estimate"

def encodings : TokenService → List EncodingName
  | .encoded strategy => strategy.encodings
  | .estimated => []

end TokenService

end PromptPack
