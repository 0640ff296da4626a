import PromptPack.Estimation.Base
import PromptPack.Estimation.Dispatch
import PromptPack.Transform.Apply

/-! Bringing the estimation in line with a selection and its settings. Only files whose transformed
text differs from the one last queued are queued again. -/

namespace PromptPack.Estimator

def transformed (files : List SourceFile) (base : Table String String) (settings : Settings) :
    Table String String :=
  .ofList (files.filterMap fun file =>
    (base.get? file.path).map fun text =>
      (file.path, Transform.apply text file.normalizedExtension settings))

def isBasis (s : Estimator) (settings : Settings) (strategy : Strategy) : Bool :=
  s.basis.any fun (known, used) => known.same settings && used == strategy

/-- Under other settings or another strategy everything is counted anew. -/
def adopt (settings : Settings) (strategy : Strategy) (s : Estimator) : Estimator :=
  if s.isBasis settings strategy then s
  else { s with fingerprints := [], pending := [], basis := some (settings, strategy), strategy }

def adoptNotice (settings : Settings) (strategy : Strategy) (files : Nat) (s : Estimator) :
    List LogRecord :=
  if s.basis.isNone || s.isBasis settings strategy then []
  else [debug s!"Settings or tokenizer changed, recounting all {files} files"]

def changed (s : Estimator) (counted : Table String String) : Table String String :=
  counted.filter fun (path, text) => s.fingerprints.get? path != some text

def setAll (t entries : Table String String) : Table String String :=
  entries.foldl (fun t (path, text) => t.set path text) t

def enqueue (s : Estimator) (files : Table String String) : Estimator :=
  { s with fingerprints := setAll s.fingerprints files, pending := setAll s.pending files }

/-- Queues the changed files of a selection and answers how many there are. -/
def recompute (oracle : Option Oracle) (selected : List SourceFile)
    (contents : Table String (Option String)) (settings : Settings) (strategy : Strategy)
    (s : Estimator) : Turn Nat :=
  let files := selected.filter (!·.isDir)
  let base := s.base oracle files (rawContents files contents) settings
  let counted := transformed files base.contents settings
  let log := base.log ++ base.state.adoptNotice settings strategy counted.length
  let adopted := base.state.adopt settings strategy
  let queue := adopted.changed counted
  let queued := adopted.enqueue queue
  if queue.isEmpty then { answer := .ok 0, state := queued, log, call := base.call }
  else
    let turn := queued.schedule
    { answer := turn.answer.map fun _ => queue.length
      state := turn.state
      log := log ++ turn.log
      submitted := turn.submitted
      call := base.call }

end PromptPack.Estimator
