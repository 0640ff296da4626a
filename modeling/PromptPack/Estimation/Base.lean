import PromptPack.Estimation.Estimator

/-! The texts that the transforms start from: the raw ones, or the pruned ones while pruning is on.
The last pruning is kept, and serves again as long as its question stays the same. -/

namespace PromptPack

namespace Estimator

def rawContents (files : List SourceFile) (contents : Table String (Option String)) :
    Table String String :=
  .ofList (files.filterMap fun file =>
    ((contents.get? file.path).join).map fun text => (file.path, text))

def selectionKey (files : List SourceFile) : List (String × String) :=
  files.map fun file => (file.path, file.normalizedExtension)

end Estimator

def ReachabilityCache.answers (cache : ReachabilityCache) (entryPoint : Value)
    (selection : List (String × String)) (raw : Table String String) : Bool :=
  cache.entryPoint.same entryPoint && cache.selection == selection && cache.rawContents == raw

namespace Estimator

def countHit (s : Estimator) : Estimator :=
  { s with stats.reachabilityCacheHits := s.stats.reachabilityCacheHits + 1 }

def countRecompute (s : Estimator) : Estimator :=
  { s with stats.reachabilityRecomputes := s.stats.reachabilityRecomputes + 1 }

/-- The texts to transform, and what finding them did. -/
structure Base where
  contents : Table String String
  state : Estimator
  log : List LogRecord := []
  call : Option OracleCall := none

/-- The base texts of a selection without directories. -/
def base (oracle : Option Oracle) (files : List SourceFile) (raw : Table String String)
    (settings : Settings) (s : Estimator) : Base :=
  if !settings.pruningEnabled then { contents := raw, state := { s with cache := none } }
  else
    let selection := selectionKey files
    match s.cache.filter (·.answers settings.entryPoint selection raw) with
    | some cache =>
      { contents := cache.result
        state := s.countHit
        log := [debug s!"Reachability cache hit files={raw.length}"] }
    | none =>
      let pruned := Prune.pruneSelection files raw settings.entryPoint oracle
      let result := pruned.value.contents
      { contents := result
        state :=
          { s.countRecompute with cache := some ⟨settings.entryPoint, selection, raw, result⟩ }
        log := pruned.log ++ [debug s!"Reachability recomputed files={raw.length}"]
        call := pruned.value.call }

end Estimator

end PromptPack
