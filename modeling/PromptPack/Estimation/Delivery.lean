import PromptPack.Estimation.Estimator

/-! Results of batches. Only the latest batch counts: the result of an older one is dropped, since
every file in it that still matters is in a newer batch. -/

namespace PromptPack.Estimator

def staleNotice (requestId : Int) (latest : Nat) : LogRecord :=
  debug s!"Stale token result ignored request={requestId} latest={latest}"

def merge (tokenMap : Table String Int) (results : List (String × Int)) :
    Table String Int × Int :=
  results.foldl (fun (known, delta) (path, tokens) =>
    (known.set path tokens, delta + (tokens - (known.get? path).getD 0))) (tokenMap, 0)

def mergeNotice (result : TokenBatchResult) (delta : Int) : LogRecord :=
  debug (s!"Token result applied request={result.requestId} files={result.results.length} " ++
    s!"deltaTokens={delta}")

def applyResult (result : TokenBatchResult) (s : Estimator) : Turn Bool :=
  let s := { s with outstanding := s.outstanding.erase result.requestId }
  if result.requestId < s.latest then
    { answer := .ok false
      state := { s with stats.resultsDropped := s.stats.resultsDropped + 1 }
      log := [staleNotice result.requestId s.latest] }
  else
    let (tokenMap, delta) := merge s.tokenMap result.results
    { answer := .ok true
      state := { s with tokenMap, stats.resultsApplied := s.stats.resultsApplied + 1 }
      log := [mergeNotice result delta] }

def failureNotice (requestId : Int) (reason : String) : LogRecord :=
  ⟨.warning, .estimation, s!"Token counting failed for request {requestId}, using estimates: {reason}"⟩

/-- The outcome of a batch comes back; a failure counts by length. -/
def deliver (batch : TokenBatch) (outcome : Except String TokenBatchResult) (s : Estimator) :
    Turn Bool :=
  match outcome with
  | .ok result => s.applyResult result
  | .error reason =>
    let turn := s.applyResult batch.estimate
    { turn with log := failureNotice batch.requestId reason :: turn.log }

end PromptPack.Estimator
