import PromptPack.Estimation.Estimator

/-! Sending the pending files. A batch takes along the files of older batches that are still awaited
and have not changed since, because the results of those batches will come too late to be used. -/

namespace PromptPack.Estimator

/-- Takes over the files of an older batch that are as they were, unless they are there already. -/
def carryOver (fingerprints files older : Table String String) : Table String String :=
  older.foldl (fun files (path, text) =>
    if !files.has path && fingerprints.get? path == some text then files.set path text else files)
    files

def nextFiles (s : Estimator) : Table String String :=
  s.outstanding.foldl (fun files (_, older) => carryOver s.fingerprints files older) s.pending

def dispatchNotice (batch : TokenBatch) : LogRecord :=
  let chars := total (batch.files.map fun (_, text) => (text.length : Int))
  debug (s!"Token batch queued request={batch.requestId} files={batch.files.length} " ++
    s!"chars={chars} strategy={batch.strategy.name}")

def sent (s : Estimator) (batch : TokenBatch) : Estimator :=
  { s with
    pending := []
    latest := s.latest + 1
    outstanding := s.outstanding.set batch.requestId batch.files
    stats.batchesDispatched := s.stats.batchesDispatched + 1
    stats.filesDispatched := s.stats.filesDispatched + batch.files.length }

/-- Sends the pending files, if there are any, and answers the request. A worker that has shut down
refuses the batch when it is registered already. -/
def dispatch (s : Estimator) : Turn (Option Int) :=
  if s.pending.isEmpty then { answer := .ok none, state := s }
  else
    let batch : TokenBatch := ⟨(s.latest : Int) + 1, s.nextFiles, s.strategy⟩
    let log := [dispatchNotice batch]
    if s.worker.accepts then
      { answer := .ok (some batch.requestId), state := s.sent batch, log, submitted := some batch }
    else { answer := .error .shutDown, state := s.sent batch, log }

/-- Disarms the timer; timers armed before are of an older generation. -/
def cancelTimer (s : Estimator) : Estimator :=
  { s with generation := s.generation + 1, timer := none }

/-- Restarts the quiet time, or sends at once without one. -/
def schedule (s : Estimator) : Turn Unit :=
  let s := s.cancelTimer
  if s.interval.le (.int 0) then
    let turn := s.dispatch
    { turn with answer := turn.answer.map fun _ => () }
  else { answer := .ok (), state := { s with timer := some s.generation } }

def fire (generation : Nat) (s : Estimator) : Turn (Option Int) :=
  if generation = s.generation then dispatch { s with timer := none }
  else { answer := .ok none, state := s }

def flush (s : Estimator) : Turn (Option Int) := s.cancelTimer.dispatch

def close (s : Estimator) : Estimator :=
  { s.cancelTimer with
    pending := []
    worker :=
      match s.worker with
      | .shared => .shared
      | .owned _ => .owned false }

end PromptPack.Estimator
