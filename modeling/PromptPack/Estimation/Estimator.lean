import PromptPack.Config.PackConfig
import PromptPack.Numeric.Total
import PromptPack.Prune.Reachability
import PromptPack.Tokens.Count

/-! The state of a token estimation. Changed files wait in `pending` until the debounce timer fires,
then leave in one batch, which is `outstanding` until its result comes back. -/

namespace PromptPack

structure ReachabilityCache where
  entryPoint : Value
  selection : List (String × String)
  rawContents : Table String String
  result : Table String String
deriving Repr

structure EstimationStats where
  reachabilityRecomputes : Nat := 0
  reachabilityCacheHits : Nat := 0
  batchesDispatched : Nat := 0
  filesDispatched : Nat := 0
  resultsApplied : Nat := 0
  resultsDropped : Nat := 0
deriving DecidableEq, Repr

/-- Who counts the batches: a worker from outside, or one of its own, which closing shuts down. -/
inductive Worker where
  | shared
  | owned (isOpen : Bool)
deriving DecidableEq, Repr

def Worker.accepts : Worker → Bool
  | .shared => true
  | .owned isOpen => isOpen

structure Estimator where
  /-- The quiet time before a batch leaves; without one it leaves at once. -/
  interval : Number
  worker : Worker := .shared
  /-- The text of each file as it was last queued. -/
  fingerprints : Table String String := []
  pending : Table String String := []
  /-- The files of the batches whose results are awaited, by request. -/
  outstanding : Table Int (Table String String) := []
  tokenMap : Table String Int := []
  basis : Option (Settings × Strategy) := none
  strategy : Strategy := .approx
  latest : Nat := 0
  cache : Option ReachabilityCache := none
  /-- The generation of the armed timer, if one is armed. -/
  timer : Option Nat := none
  generation : Nat := 0
  stats : EstimationStats := {}
deriving Repr

inductive EstimationPhase where
  | idle | debouncing | dispatched
deriving DecidableEq, Repr

/-- What an operation answers and does, besides the state it leaves. -/
structure Turn (α : Type) where
  answer : Except Fault α
  state : Estimator
  log : List LogRecord := []
  submitted : Option TokenBatch := none
  call : Option OracleCall := none

namespace Estimator

def defaultInterval : Number := .float (.ofRatio false 15 100)

def ofConfig (worker : Worker) (config : PackConfig) : Except Fault Estimator := do
  return { interval := .float (← config.debounceSeconds), worker }

def phase (s : Estimator) : EstimationPhase :=
  if !s.pending.isEmpty then .debouncing
  else if !s.outstanding.isEmpty then .dispatched
  else .idle

def isCalculating (s : Estimator) : Bool := s.phase != .idle

/-- The known counts of the selected files; a file that is not known counts nothing. -/
def totalTokens (s : Estimator) (selected : List SourceFile) : Int :=
  total ((selected.filter (!·.isDir)).map fun file => (s.tokenMap.get? file.path).getD 0)

def debug (message : String) : LogRecord := ⟨.debug, .estimation, message⟩

end Estimator

end PromptPack
