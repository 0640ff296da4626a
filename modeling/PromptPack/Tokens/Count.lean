import PromptPack.Budget.PackFile
import PromptPack.Text.Blank
import PromptPack.Text.Search
import PromptPack.Tokens.Strategy
import PromptPack.Trace

/-! Counting tokens. Encodings come from outside and can fail, to load or on a text; then the count
is the estimate from the length. -/

namespace PromptPack

abbrev Encoding := String → Except String Nat

abbrev Encodings := EncodingName → Except String Encoding

namespace Encoding

def words (weight : Nat) : Encoding := fun text => .ok ((Text.words text.toList).length * weight)

def characters : Encoding := fun text => .ok text.length

/-- Fails with the reason on texts that contain the key. -/
def refusing (key reason : String) (encoding : Encoding) : Encoding := fun text =>
  if Text.contains key.toList text.toList then .error reason else encoding text

end Encoding

namespace Tokens

/-- The largest count of the named encodings; the first failure counts. -/
def largest (encodings : Encodings) (text : String) : List EncodingName → Except String Nat
  | [] => .ok 0
  | name :: names => do
    let encoding ← encodings name
    let count ← encoding text
    let others ← largest encodings text names
    return max count others

def countText (encodings : Encodings) (strategy : Strategy) (text : String) : Traced Nat :=
  if text.isEmpty then pure 0
  else
    match largest encodings text strategy.encodings with
    | .ok count => pure count
    | .error reason => do
      Traced.write .debug .counting s!"Token encoding failed, using character estimate: {reason}"
      return Budget.charEstimate text

end Tokens

structure TokenBatch where
  requestId : Int
  files : List (String × String)
  strategy : Strategy
deriving DecidableEq, Repr

structure TokenBatchResult where
  requestId : Int
  results : List (String × Int)
deriving DecidableEq, Repr

namespace TokenBatch

def count (encodings : Encodings) (batch : TokenBatch) : Traced TokenBatchResult := do
  let results ← batch.files.mapM fun (path, content) => do
    let tokens ← Tokens.countText encodings batch.strategy content
    return (path, (tokens : Int))
  return ⟨batch.requestId, results⟩

/-- The result when counting failed: each file by its length. -/
def estimate (batch : TokenBatch) : TokenBatchResult :=
  ⟨batch.requestId, batch.files.map fun (path, content) => (path, Budget.charEstimate content)⟩

end TokenBatch

end PromptPack
