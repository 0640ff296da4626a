import PromptPack.Estimation.Delivery
import PromptPack.Estimation.Recompute
import PromptPack.Proofs.Table

/-! An estimator at work: calls, timer firings and outcomes reach it in any order. Beside its state
a session keeps what passed between the estimator and its worker, so that a statement can speak of
what was sent and what came back. What every part of an event keeps holds after every run:
`Kept.run`. -/

namespace PromptPack

/-- What a recomputation is called with. The oracle may be another one each time. -/
structure Request where
  oracle : Option Oracle := none
  selected : List SourceFile
  contents : Table String (Option String)
  settings : Settings := {}
  strategy : Strategy := .approx

namespace Request

def ofTexts (texts : List (String × String)) : Request :=
  { selected := texts.map fun entry => SourceFile.ofPath { path := entry.1 }
    contents := texts.map fun entry => (entry.1, some entry.2) }

def files (r : Request) : List SourceFile := r.selected.filter (!·.isDir)

def raw (r : Request) : Table String String := Estimator.rawContents r.files r.contents

def base (r : Request) (s : Estimator) : Estimator.Base := s.base r.oracle r.files r.raw r.settings

def counted (r : Request) (s : Estimator) : Table String String :=
  Estimator.transformed r.files (r.base s).contents r.settings

def adopted (r : Request) (s : Estimator) : Estimator :=
  (r.base s).state.adopt r.settings r.strategy

def changed (r : Request) (s : Estimator) : Table String String :=
  (r.adopted s).changed (r.counted s)

def queued (r : Request) (s : Estimator) : Estimator := (r.adopted s).enqueue (r.changed s)

def run (r : Request) (s : Estimator) : Turn Nat :=
  s.recompute r.oracle r.selected r.contents r.settings r.strategy

end Request

inductive EstimationEvent where
  | recompute (request : Request)
  | flush
  /-- The timer of a generation fires, in time or late. -/
  | fire (generation : Nat)
  /-- The outcome of a batch: it was counted, or counting failed for a reason. -/
  | deliver (requestId : Int) (failure : Option String)
  | close

structure Delivery where
  batch : TokenBatch
  failure : Option String
  merged : Bool

structure Session where
  estimator : Estimator
  /-- The batches that the worker was given, oldest first. -/
  sent : List TokenBatch := []
  /-- Those of them whose outcome has not come back. -/
  awaited : List TokenBatch := []
  returned : List Delivery := []

def TokenBatch.outcome (encodings : Encodings) (batch : TokenBatch) :
    Option String → Except String TokenBatchResult
  | none => .ok (batch.count encodings).value
  | some reason => .error reason

namespace Session

variable {α : Type}

def start (interval : Number) (worker : Worker) : Session := { estimator := { interval, worker } }

def withEstimator (w : Session) (s : Estimator) : Session := { w with estimator := s }

def after (w : Session) (turn : Turn α) : Session :=
  { w with
    estimator := turn.state
    sent := w.sent ++ turn.submitted.toList
    awaited := w.awaited ++ turn.submitted.toList }

def delivered (encodings : Encodings) (w : Session) (batch : TokenBatch)
    (failure : Option String) : Session :=
  let turn := w.estimator.deliver batch (batch.outcome encodings failure)
  { w with
    estimator := turn.state
    awaited := w.awaited.filter fun other => other.requestId ≠ batch.requestId
    returned := w.returned ++ [⟨batch, failure, turn.answer matches .ok true⟩] }

/-- One event. An outcome comes back once; for a batch that is not awaited nothing happens. -/
def step (encodings : Encodings) (w : Session) : EstimationEvent → Session
  | .recompute request => w.after (request.run w.estimator)
  | .flush => w.after w.estimator.flush
  | .fire generation => w.after (w.estimator.fire generation)
  | .deliver requestId failure =>
    match w.awaited.find? fun batch => batch.requestId = requestId with
    | some batch => w.delivered encodings batch failure
    | none => w
  | .close => w.withEstimator w.estimator.close

def run (encodings : Encodings) (w : Session) (events : List EstimationEvent) : Session :=
  events.foldl (step encodings) w

theorem run_append (encodings : Encodings) (w : Session) (before after : List EstimationEvent) :
    w.run encodings (before ++ after) = (w.run encodings before).run encodings after :=
  List.foldl_append

theorem run_concat (encodings : Encodings) (w : Session) (before : List EstimationEvent)
    (event : EstimationEvent) :
    w.run encodings (before ++ [event]) = (w.run encodings before).step encodings event :=
  run_append encodings w before [event]

/-- A property that every part of an event keeps, closing apart. -/
structure Kept (encodings : Encodings) (P : Session → Prop) : Prop where
  timer : ∀ w generation timer, P w →
    P (w.withEstimator { w.estimator with generation, timer })
  base : ∀ w cache recomputes hits, P w →
    P (w.withEstimator { w.estimator with
      cache
      stats := { w.estimator.stats with
        reachabilityRecomputes := recomputes
        reachabilityCacheHits := hits } })
  reset : ∀ w settings strategy, P w →
    P (w.withEstimator { w.estimator with
      fingerprints := []
      pending := []
      basis := some (settings, strategy)
      strategy })
  enqueue : ∀ w (counted : Table String String), counted.keys.Nodup → P w →
    P (w.withEstimator (w.estimator.enqueue (w.estimator.changed counted)))
  dispatch : ∀ w, P w → P (w.after w.estimator.dispatch)
  deliver : ∀ w, ∀ batch ∈ w.awaited, ∀ failure, P w → P (w.delivered encodings batch failure)

theorem after_of_submitted_eq_none (w : Session) {turn : Turn α} (h : turn.submitted = none) :
    w.after turn = w.withEstimator turn.state := by
  simp only [after, withEstimator, h, Option.toList_none, List.append_nil]

theorem after_run (w : Session) (r : Request) :
    w.after (r.run w.estimator) =
      if (r.changed w.estimator).isEmpty then w.withEstimator (r.queued w.estimator)
      else (w.withEstimator (r.queued w.estimator)).after (r.queued w.estimator).schedule := by
  unfold Request.run Estimator.recompute
  dsimp only
  change w.after (if (r.changed w.estimator).isEmpty then _ else _) = _
  split
  · rw [after_of_submitted_eq_none w rfl]
    rfl
  · rfl

namespace Kept

variable {encodings : Encodings} {P : Session → Prop}

theorem cancelTimer (kept : Kept encodings P) {w : Session} (h : P w) :
    P (w.withEstimator w.estimator.cancelTimer) :=
  kept.timer w (w.estimator.generation + 1) none h

theorem flush (kept : Kept encodings P) {w : Session} (h : P w) : P (w.after w.estimator.flush) :=
  kept.dispatch _ (kept.cancelTimer h)

theorem fire (kept : Kept encodings P) {w : Session} (generation : Nat) (h : P w) :
    P (w.after (w.estimator.fire generation)) := by
  unfold Estimator.fire
  split
  · exact kept.dispatch _ (kept.timer w w.estimator.generation none h)
  · rw [after_of_submitted_eq_none w rfl]
    exact h

theorem schedule (kept : Kept encodings P) {w : Session} (h : P w) :
    P (w.after w.estimator.schedule) := by
  unfold Estimator.schedule
  dsimp only
  split
  · exact kept.dispatch _ (kept.cancelTimer h)
  · rw [after_of_submitted_eq_none w rfl]
    exact kept.timer _ w.estimator.cancelTimer.generation
      (some w.estimator.cancelTimer.generation) h

theorem baseState (kept : Kept encodings P) {w : Session} (oracle : Option Oracle)
    (files : List SourceFile) (raw : Table String String) (settings : Settings) (h : P w) :
    P (w.withEstimator (w.estimator.base oracle files raw settings).state) := by
  unfold Estimator.base
  split
  · exact kept.base w none _ _ h
  · dsimp only
    split
    · exact kept.base w w.estimator.cache _ _ h
    · exact kept.base w _ _ _ h

theorem adopt (kept : Kept encodings P) {w : Session} (settings : Settings) (strategy : Strategy)
    (h : P w) : P (w.withEstimator (w.estimator.adopt settings strategy)) := by
  unfold Estimator.adopt
  split
  · exact h
  · exact kept.reset w settings strategy h

theorem queued (kept : Kept encodings P) {w : Session} (request : Request) (h : P w) :
    P (w.withEstimator (request.queued w.estimator)) := by
  have based : P (w.withEstimator (request.base w.estimator).state) :=
    kept.baseState request.oracle request.files request.raw request.settings h
  have adopted : P (w.withEstimator (request.adopted w.estimator)) :=
    kept.adopt request.settings request.strategy based
  exact kept.enqueue _ (request.counted w.estimator) (Table.nodup_keys_ofList _) adopted

theorem recompute (kept : Kept encodings P) {w : Session} (request : Request) (h : P w) :
    P (w.after (request.run w.estimator)) := by
  rw [after_run]
  split
  · exact kept.queued request h
  · exact kept.schedule (kept.queued request h)

theorem step (kept : Kept encodings P) {w : Session} {event : EstimationEvent}
    (open_ : event ≠ .close) (h : P w) : P (w.step encodings event) := by
  cases event with
  | recompute request => exact kept.recompute request h
  | flush => exact kept.flush h
  | fire generation => exact kept.fire generation h
  | deliver requestId failure =>
    unfold Session.step
    dsimp only
    split
    · next batch found => exact kept.deliver w batch (List.mem_of_find?_eq_some found) failure h
    · exact h
  | close => exact absurd rfl open_

theorem run (kept : Kept encodings P) {w : Session} {events : List EstimationEvent}
    (running : .close ∉ events) (h : P w) : P (w.run encodings events) := by
  induction events generalizing w with
  | nil => exact h
  | cons event events ih =>
    obtain ⟨other, running⟩ := not_or.mp (mt List.mem_cons.mpr running)
    exact ih running (kept.step (Ne.symm other) h)

end Kept

end Session

end PromptPack
