import PromptPack.Proofs.Estimation.Recompute
import PromptPack.Proofs.Fault

/-! A worker that refuses a batch. The batch is registered before it is handed over, and a refusal
takes nothing back: the request stays outstanding for ever, the batches under way become stale, and
the files are neither pending nor queued again by asking the same once more. -/

namespace PromptPack

namespace Estimator

variable {s : Estimator}

theorem dispatch_error_iff :
    (∃ fault, s.dispatch.answer = .error fault) ↔ s.pending ≠ [] ∧ s.worker.accepts = false := by
  by_cases nothing : s.pending = []
  · simp [dispatch_of_nil nothing, nothing]
  · cases accepts : s.worker.accepts with
    | true => simp [dispatch_of_pending nothing accepts]
    | false => simp [dispatch_of_refused nothing accepts, nothing]

/-- The same question finds the same texts again in the cache, whatever would be answered now. -/
theorem contents_base_again {t : Estimator} {oracle : Option Oracle} {files : List SourceFile}
    {raw : Table String String} {settings : Settings} (other : Option Oracle)
    (equal : settings.entryPoint.same settings.entryPoint = true)
    (cached : t.cache = (s.base oracle files raw settings).state.cache) :
    (t.base other files raw settings).contents = (s.base oracle files raw settings).contents := by
  unfold base at *
  split
  · rfl
  · next enabled =>
    rw [if_neg enabled] at cached
    dsimp only at cached ⊢
    split at cached
    · next found hit =>
      have again : t.cache = s.cache := cached
      rw [again, hit]
    · next missed =>
      have again : t.cache = some _ := cached
      rw [again, Option.filter_some_pos (by simp [ReachabilityCache.answers, equal])]

theorem isBasis_adopt {settings : Settings} (strategy : Strategy)
    (equal : settings.same settings = true) :
    (s.adopt settings strategy).isBasis settings strategy = true := by
  unfold adopt
  split
  · assumption
  · simp [isBasis, equal]

end Estimator

namespace Request

variable {r : Request} {s t : Estimator}

/-- As long as its question stands, a request finds nothing changed, whomever it would ask. -/
theorem changed_again (equal : r.settings.same r.settings = true)
    (same : Estimator.SameQuestion (r.queued s) t) (oracle : Option Oracle) :
    ({ r with oracle } : Request).changed t = [] ∧ t.isBasis r.settings r.strategy = true := by
  let again : Request := { r with oracle }
  have cache : (r.queued s).cache = (r.base s).state.cache :=
    Session.cache_adopt _ r.settings r.strategy
  have entryPoint : r.settings.entryPoint.same r.settings.entryPoint = true := by
    simp only [Settings.same, Settings.toEntries, List.zip_cons_cons, List.zip_nil_right,
      List.all_cons, List.all_nil, Bool.and_eq_true] at equal
    exact equal.2.2.2.2.2.2.1
  have counted : again.counted t = r.counted s := by
    unfold Request.counted
    congr 1
    exact Estimator.contents_base_again oracle entryPoint (same.cache.trans cache)
  have known : t.isBasis r.settings r.strategy = true := by
    have adopted : (r.adopted s).isBasis r.settings r.strategy = true :=
      Estimator.isBasis_adopt r.strategy equal
    rw [Estimator.isBasis, same.basis]
    exact adopted
  refine ⟨?_, known⟩
  apply again.changed_eq_nil_of_current known
  intro path text found
  rw [counted] at found
  rw [same.fingerprints, r.fingerprints_queued, found, Option.some_or]

theorem run_again (equal : r.settings.same r.settings = true)
    (same : Estimator.SameQuestion (r.queued s) t) :
    (r.run t).answer = .ok 0 ∧ (r.run t).state.pending = t.pending := by
  obtain ⟨unchanged, known⟩ := changed_again equal same r.oracle
  obtain ⟨answer, state, -⟩ := run_of_unchanged unchanged
  refine ⟨answer, ?_⟩
  rw [state, r.pending_adopted t, if_pos known]

end Request

namespace Session

def withWorker (w : Session) (worker : Worker) : Session :=
  w.withEstimator { w.estimator with worker }

/-- One event, met by the worker as it is then. -/
def stepOn (encodings : Encodings) (w : Session) (move : Worker × EstimationEvent) : Session :=
  (w.withWorker move.1).step encodings move.2

def runOn (encodings : Encodings) (w : Session) (moves : List (Worker × EstimationEvent)) :
    Session :=
  moves.foldl (stepOn encodings) w

variable {encodings : Encodings} {w : Session} {event : EstimationEvent}

theorem runOn_append (encodings : Encodings) (w : Session)
    (before after : List (Worker × EstimationEvent)) :
    w.runOn encodings (before ++ after) = (w.runOn encodings before).runOn encodings after :=
  List.foldl_append

/-- A property that every part of an event keeps, closing too, whatever the worker is then. -/
structure KeptOn (encodings : Encodings) (P : Session → Prop) : Prop extends Kept encodings P where
  worker : ∀ w worker, P w → P (w.withWorker worker)
  forget : ∀ w, P w → P (w.withEstimator { w.estimator with pending := [] })

namespace KeptOn

variable {P : Session → Prop}

theorem stepOn (kept : KeptOn encodings P) (h : P w) (move : Worker × EstimationEvent) :
    P (w.stepOn encodings move) := by
  obtain ⟨worker, event⟩ := move
  have met : P (w.withWorker worker) := kept.worker w worker h
  by_cases closing : event = .close
  · subst closing
    have cancelled := kept.toKept.cancelTimer met
    exact kept.worker _ (w.withWorker worker).estimator.close.worker (kept.forget _ cancelled)
  · exact kept.toKept.step closing met

theorem runOn (kept : KeptOn encodings P) (h : P w) (moves : List (Worker × EstimationEvent)) :
    P (w.runOn encodings moves) := by
  induction moves generalizing w with
  | nil => exact h
  | cons move moves ih => exact ih (kept.stepOn h move)

end KeptOn

theorem sameQuestion_withWorker (w : Session) (worker : Worker) :
    Estimator.SameQuestion w.estimator (w.withWorker worker).estimator := ⟨rfl, rfl, rfl, rfl⟩

theorem sameQuestion_runOn {moves : List (Worker × EstimationEvent)}
    (quiet : ∀ move ∈ moves, ∀ r, move.2 ≠ .recompute r) :
    Estimator.SameQuestion w.estimator (w.runOn encodings moves).estimator := by
  induction moves generalizing w with
  | nil => exact .refl _
  | cons move moves ih =>
    obtain ⟨first, quiet⟩ := List.forall_mem_cons.mp quiet
    have met := sameQuestion_withWorker w move.1
    exact (met.trans (sameQuestion_step first)).trans (ih quiet)

def refusing (w : Session) : Session := w.withEstimator (w.estimator.sent w.estimator.nextBatch)

theorem after_dispatch_of_refused (h : w.estimator.pending ≠ [])
    (refuses : w.estimator.worker.accepts = false) :
    w.after w.estimator.dispatch = w.refusing := by
  rw [Estimator.dispatch_of_refused h refuses, after_of_submitted_eq_none w rfl]
  rfl

theorem after_dispatch_cases (w : Session) :
    w.after w.estimator.dispatch = w ∨ w.after w.estimator.dispatch = w.sending ∨
      w.after w.estimator.dispatch = w.refusing := by
  by_cases nothing : w.estimator.pending = []
  · exact .inl (after_dispatch_of_nil nothing)
  · cases accepts : w.estimator.worker.accepts with
    | true => exact .inr (.inl (after_dispatch_of_pending nothing accepts))
    | false => exact .inr (.inr (after_dispatch_of_refused nothing accepts))

theorem delivered_cases (w : Session) (batch : TokenBatch) (failure : Option String) :
    w.delivered encodings batch failure = w.dropping batch failure ∨
      w.delivered encodings batch failure = w.merging encodings batch failure := by
  by_cases older : batch.requestId < w.estimator.latest
  · exact .inl (delivered_of_lt older)
  · exact .inr (delivered_of_not_lt older)

/-- What is left of the numbering when requests can be refused. -/
structure Ordered (w : Session) : Prop where
  sent : ∀ batch ∈ w.sent, batch.requestId ≤ w.estimator.latest
  awaited : ∀ batch ∈ w.awaited, batch ∈ w.sent
  current : Estimator.Current w.estimator.fingerprints w.estimator.pending

namespace Ordered

theorem start (interval : Number) (worker : Worker) : Ordered (.start interval worker) where
  sent := by simp [Session.start]
  awaited := by simp [Session.start]
  current := by simp [Session.start, Estimator.Current]

theorem emptied {s : Estimator} (h : Ordered w) (latest : s.latest = w.estimator.latest)
    (pending : s.pending = []) : Ordered (w.withEstimator s) where
  sent := by
    change ∀ batch ∈ w.sent, batch.requestId ≤ s.latest
    rw [latest]
    exact h.sent
  awaited := h.awaited
  current := by
    change Estimator.Current s.fingerprints s.pending
    simp [pending, Estimator.Current]

theorem older (h : Ordered w) : ∀ batch ∈ w.sent, batch.requestId < (w.estimator.latest : Int) + 1 :=
  fun batch member => Int.lt_add_one_of_le (h.sent batch member)

theorem refusing (h : Ordered w) : Ordered w.refusing where
  sent := fun batch member => Int.le_of_lt (h.older batch member)
  awaited := h.awaited
  current := by simp [Session.refusing, Session.withEstimator, Estimator.sent, Estimator.Current]

theorem sending (h : Ordered w) : Ordered w.sending where
  sent := by
    intro batch member
    rcases List.mem_append.mp member with member | member
    · exact Int.le_of_lt (h.older batch member)
    · obtain rfl := List.mem_singleton.mp member
      exact Int.le_refl _
  awaited := by
    intro batch member
    rcases List.mem_append.mp member with member | member
    · exact List.mem_append_left _ (h.awaited batch member)
    · exact List.mem_append_right _ member
  current := h.refusing.current

theorem keptOn : KeptOn encodings Ordered where
  timer _ _ _ h := ⟨h.sent, h.awaited, h.current⟩
  base _ _ _ _ h := ⟨h.sent, h.awaited, h.current⟩
  reset _ _ _ h := h.emptied rfl rfl
  enqueue _ _ distinct h := ⟨h.sent, h.awaited, Estimator.current_enqueue h.current distinct⟩
  dispatch w h := by
    rcases after_dispatch_cases w with same | same | same
    · rw [same]
      exact h
    · rw [same]
      exact h.sending
    · rw [same]
      exact h.refusing
  deliver w batch _ failure h := by
    have rest : ∀ other ∈ w.awaited.filter fun other => other.requestId ≠ batch.requestId,
        other ∈ w.sent := fun other member => h.awaited other (List.mem_filter.mp member).1
    rcases delivered_cases w batch failure with same | same
    · rw [same]
      exact ⟨h.sent, rest, h.current⟩
    · rw [same]
      exact ⟨h.sent, rest, h.current⟩
  worker _ _ h := ⟨h.sent, h.awaited, h.current⟩
  forget _ h := h.emptied rfl rfl

end Ordered

/-- A request that is registered, though no batch of its number is awaited. -/
structure Stuck (requestId : Int) (files : Table String String) (w : Session) : Prop where
  registered : w.estimator.outstanding.get? requestId = some files
  unsent : ∀ batch ∈ w.awaited, batch.requestId ≠ requestId
  past : requestId ≤ w.estimator.latest

namespace Stuck

variable {requestId : Int} {files : Table String String}

theorem refusing (h : Stuck requestId files w) : Stuck requestId files w.refusing where
  registered := by
    have other : requestId ≠ (w.estimator.latest : Int) + 1 := by
      have := h.past
      omega
    change (w.estimator.outstanding.set ((w.estimator.latest : Int) + 1) _).get? requestId = _
    rw [Table.get?_set, if_neg other, h.registered]
  unsent := h.unsent
  past := Int.le_trans h.past (Int.le_of_lt (Int.lt_add_one_of_le (Int.le_refl _)))

theorem sending (h : Stuck requestId files w) : Stuck requestId files w.sending where
  registered := h.refusing.registered
  unsent := by
    intro batch member
    rcases List.mem_append.mp member with member | member
    · exact h.unsent batch member
    · obtain rfl := List.mem_singleton.mp member
      have past := h.past
      change (w.estimator.latest : Int) + 1 ≠ requestId
      omega
  past := h.refusing.past

theorem get?_erase (h : Stuck requestId files w) {batch : TokenBatch} (member : batch ∈ w.awaited) :
    (w.estimator.outstanding.erase batch.requestId).get? requestId = some files := by
  have other : batch.requestId ≠ requestId := h.unsent batch member
  rw [Table.get?_erase, if_neg (Ne.symm other), h.registered]

theorem keptOn : KeptOn encodings (Stuck requestId files) where
  timer _ _ _ h := ⟨h.registered, h.unsent, h.past⟩
  base _ _ _ _ h := ⟨h.registered, h.unsent, h.past⟩
  reset _ _ _ h := ⟨h.registered, h.unsent, h.past⟩
  enqueue _ _ _ h := ⟨h.registered, h.unsent, h.past⟩
  dispatch w h := by
    rcases after_dispatch_cases w with same | same | same
    · rw [same]
      exact h
    · rw [same]
      exact h.sending
    · rw [same]
      exact h.refusing
  deliver w batch member failure h := by
    have rest : ∀ other ∈ w.awaited.filter fun other => other.requestId ≠ batch.requestId,
        other.requestId ≠ requestId := fun other member => h.unsent other (List.mem_filter.mp member).1
    rcases delivered_cases w batch failure with same | same
    · rw [same]
      exact ⟨h.get?_erase member, rest, h.past⟩
    · rw [same]
      exact ⟨h.get?_erase member, rest, h.past⟩
  worker _ _ h := ⟨h.registered, h.unsent, h.past⟩
  forget _ h := ⟨h.registered, h.unsent, h.past⟩

end Stuck

def Refuses (w : Session) : EstimationEvent → Prop
  | .recompute r => ∃ fault, (r.run w.estimator).answer = .error fault
  | .flush => ∃ fault, w.estimator.flush.answer = .error fault
  | .fire generation => ∃ fault, (w.estimator.fire generation).answer = .error fault
  | .deliver _ _ => False
  | .close => False

def waiting (w : Session) : EstimationEvent → Table String String
  | .recompute r => (r.queued w.estimator).pending
  | _ => w.estimator.pending

structure SameLedger (s t : Estimator) : Prop where
  outstanding : t.outstanding = s.outstanding
  latest : t.latest = s.latest

theorem sameLedger_queued (r : Request) (s : Estimator) : SameLedger s (r.queued s) := by
  obtain ⟨_, _, _, _, _, _, queued⟩ := r.exists_queued s
  rw [queued]
  exact ⟨rfl, rfl⟩

structure Sends (w : Session) (event : EstimationEvent) (s : Estimator) : Prop where
  pending : s.pending = w.waiting event
  ledger : SameLedger w.estimator s
  current : Estimator.Current s.fingerprints s.pending

theorem schedule_error {s : Estimator} {fault : Fault} (h : s.schedule.answer = .error fault) :
    s.cancelTimer.dispatch.answer = .error fault ∧
      w.after s.schedule = w.after s.cancelTimer.dispatch := by
  cases immediate : s.interval.le (.int 0) with
  | false =>
    rw [Estimator.schedule_of_timed immediate] at h
    cases h
  | true =>
    rw [Estimator.schedule_of_immediate immediate] at h ⊢
    exact ⟨map_eq_error h, rfl⟩

theorem run_error {r : Request} {fault : Fault}
    (h : (r.run w.estimator).answer = .error fault) :
    (r.queued w.estimator).schedule.answer = .error fault ∧
      w.after (r.run w.estimator) = w.after (r.queued w.estimator).schedule := by
  by_cases nothing : r.changed w.estimator = []
  · rw [(Request.run_of_unchanged nothing).1] at h
    cases h
  · obtain ⟨answer, state, submitted⟩ := Request.run_of_changed nothing
    rw [answer] at h
    refine ⟨map_eq_error h, ?_⟩
    unfold after
    rw [state, submitted]

theorem exists_sends (encodings : Encodings) (ordered : Ordered w) (refused : w.Refuses event) :
    ∃ s : Estimator, w.Sends event s ∧ (∃ fault, s.dispatch.answer = .error fault) ∧
      w.step encodings event = w.after s.dispatch := by
  cases event with
  | recompute r =>
    have kept : KeptOn encodings Ordered := Ordered.keptOn
    have queued : Ordered (w.withEstimator (r.queued w.estimator)) := kept.queued r ordered
    obtain ⟨fault, answer⟩ := refused
    obtain ⟨scheduled, left⟩ := run_error answer
    obtain ⟨answer, sent⟩ := schedule_error (w := w) scheduled
    obtain ⟨outstanding, latest⟩ := sameLedger_queued r w.estimator
    exact ⟨(r.queued w.estimator).cancelTimer, ⟨rfl, ⟨outstanding, latest⟩, queued.current⟩,
      ⟨fault, answer⟩, left.trans sent⟩
  | flush =>
    exact ⟨w.estimator.cancelTimer, ⟨rfl, ⟨rfl, rfl⟩, ordered.current⟩, refused, rfl⟩
  | fire generation =>
    obtain ⟨fault, answer⟩ := refused
    unfold Estimator.fire at answer
    split at answer
    · next same =>
      refine ⟨{ w.estimator with timer := none }, ⟨rfl, ⟨rfl, rfl⟩, ordered.current⟩,
        ⟨fault, answer⟩, ?_⟩
      unfold step Estimator.fire
      dsimp only
      rw [if_pos same]
    · cases answer
  | deliver requestId failure => exact refused.elim
  | close => exact refused.elim

structure Stranded (w : Session) (event : EstimationEvent) (left : Session) : Prop where
  /-- Something waited to be sent, and waits no more. -/
  waited : w.waiting event ≠ []
  lost : left.estimator.pending = []
  /-- It is registered under a new request, the latest one, that the worker was never given. -/
  registered : ∃ files, left.estimator.outstanding.get? left.estimator.latest = some files ∧
    ∀ path text, (w.waiting event).get? path = some text →
      files.get? path = some text ∧ left.estimator.fingerprints.get? path = some text
  newest : left.estimator.latest = w.estimator.latest + 1
  unsent : left.sent = w.sent ∧ ∀ batch ∈ left.sent, batch.requestId < left.estimator.latest

theorem stranded_of_refuses (encodings : Encodings) (ordered : Ordered w)
    (refused : w.Refuses event) :
    Stranded w event (w.step encodings event) ∧
      ∃ files, Stuck (w.step encodings event).estimator.latest files (w.step encodings event) := by
  obtain ⟨s, ⟨pending, ⟨outstanding, latest⟩, current⟩, failed, step⟩ :=
    exists_sends encodings ordered refused
  obtain ⟨waited, refuses⟩ := Estimator.dispatch_error_iff.mp failed
  have left : w.step encodings event = w.withEstimator (s.sent s.nextBatch) := by
    rw [step, Estimator.dispatch_of_refused waited refuses, after_of_submitted_eq_none w rfl]
  rw [left]
  have registered : (s.sent s.nextBatch).outstanding.get? (s.sent s.nextBatch).latest =
      some s.nextFiles := by
    change (s.outstanding.set ((s.latest : Int) + 1) s.nextFiles).get? ((s.latest : Int) + 1) = _
    rw [Table.get?_set, if_pos rfl]
  have older : ∀ batch ∈ w.sent, batch.requestId < (s.latest : Int) + 1 := by
    rw [latest]
    exact ordered.older
  refine ⟨⟨pending ▸ waited, rfl, ⟨s.nextFiles, registered, ?_⟩, ?_, rfl, older⟩, s.nextFiles,
    registered, ?_, Int.le_refl _⟩
  · intro path text waits
    rw [← pending] at waits
    exact ⟨Estimator.get?_nextFiles_of_pending waits, current path text waits⟩
  · change s.latest + 1 = w.estimator.latest + 1
    rw [latest]
  · intro batch member
    exact Int.ne_of_lt (older batch (ordered.awaited batch member))

/-- A refusal is never made up for: asking the same again queues nothing, the session never comes
to rest, and what was under way is dropped when it comes back. -/
theorem refusal_strands (encodings : Encodings) (interval : Number) (worker now : Worker)
    (moves : List (Worker × EstimationEvent)) (event : EstimationEvent)
    (refused : (((start interval worker).runOn encodings moves).withWorker now).Refuses event) :
    let w := ((start interval worker).runOn encodings moves).withWorker now
    let left := w.step encodings event
    Stranded w event left ∧
      (∀ before worker r after, moves ++ [(now, event)] = before ++ (worker, .recompute r) :: after →
        (∀ move ∈ after, ∀ other, move.2 ≠ .recompute other) →
        r.settings.same r.settings = true →
        (r.run left.estimator).answer = .ok 0 ∧ (r.run left.estimator).state.pending = []) ∧
      ∀ later, (left.runOn encodings later).estimator.phase ≠ .idle ∧
        ∀ batch ∈ left.awaited, ∀ failure,
          let turn := (left.runOn encodings later).estimator.deliver batch
            (batch.outcome encodings failure)
          turn.answer = .ok false ∧
            turn.state.tokenMap = (left.runOn encodings later).estimator.tokenMap := by
  intro w left
  have kept : KeptOn encodings Ordered := Ordered.keptOn
  have ordered : Ordered w := kept.worker _ now (kept.runOn (.start interval worker) moves)
  obtain ⟨stranded, files, stuck⟩ := stranded_of_refuses encodings ordered refused
  refine ⟨stranded, ?_, ?_⟩
  · intro before met r after split quiet equal
    let v := ((start interval worker).runOn encodings before).withWorker met
    have reached : left = (v.after (r.run v.estimator)).runOn encodings after := by
      have whole : left = (start interval worker).runOn encodings (moves ++ [(now, event)]) := by
        rw [runOn_append]
        rfl
      rw [whole, split, runOn_append]
      rfl
    have same : Estimator.SameQuestion (r.queued v.estimator) left.estimator := by
      rw [reached]
      exact (sameQuestion_queued v r).trans (sameQuestion_runOn quiet)
    obtain ⟨answer, pending⟩ := Request.run_again equal same
    exact ⟨answer, pending.trans stranded.lost⟩
  · intro later
    have stays : Stuck left.estimator.latest files (left.runOn encodings later) :=
      Stuck.keptOn.runOn stuck later
    constructor
    · intro idle
      have registered := stays.registered
      rw [(Estimator.idle_iff.mp idle).2] at registered
      cases registered
    · intro batch member failure
      have orderedLeft : Ordered left :=
        kept.stepOn (kept.runOn (.start interval worker) moves) (now, event)
      have older := stranded.unsent.2 batch (orderedLeft.awaited batch member)
      have stale := Int.lt_of_lt_of_le older stays.past
      obtain ⟨answer, state⟩ := Estimator.deliver_of_lt encodings failure stale
      refine ⟨answer, ?_⟩
      rw [state]

/-- Two texts of one file are under way when the worker is shut down, and a third is refused. -/
def refusedEdit : List (Worker × EstimationEvent) :=
  [(.owned true, .recompute (.ofTexts [("a.py", "x")])),
    (.owned true, .recompute (.ofTexts [("a.py", "xy")]))]

theorem refusal_strands_refusedEdit :
    let encodings : Encodings := fun _ => .ok .characters
    let edit := Request.ofTexts [("a.py", "xyz")]
    let w := ((start (.int 0) (.owned true)).runOn encodings refusedEdit).withWorker (.owned false)
    let left := w.step encodings (.recompute edit)
    w.Refuses (.recompute edit) ∧ Stranded w (.recompute edit) left ∧
      (edit.run left.estimator).answer = .ok 0 ∧
      left.awaited.map (·.requestId) = [1, 2] ∧
      ∀ later, (left.runOn encodings later).estimator.phase ≠ .idle := by
  intro encodings edit w left
  have refused : w.Refuses (.recompute edit) := ⟨.shutDown, by decide +kernel⟩
  obtain ⟨stranded, again, later⟩ := refusal_strands encodings (.int 0) (.owned true) (.owned false)
    refusedEdit (.recompute edit) refused
  have same : edit.settings.same edit.settings = true := by decide +kernel
  exact ⟨refused, stranded, (again refusedEdit _ edit [] rfl (by simp) same).1, by decide +kernel,
    fun moves => (later moves).1⟩

/-- After closing, asking for an edited text leaves a request that was never sent and counts as under
way from then on. -/
theorem closed_worker_loses_edit :
    let encodings : Encodings := fun _ => .ok .characters
    let edit := Request.ofTexts [("a.py", "xy")]
    let w := (start (.int 0) (.owned true)).run encodings
      [.recompute (.ofTexts [("a.py", "x")]), .deliver 1 none, .close]
    let left := w.step encodings (.recompute edit)
    w.estimator.phase = .idle ∧ (edit.run w.estimator).answer = .error .shutDown ∧
      left.estimator.pending = [] ∧ (edit.run left.estimator).answer = .ok 0 ∧
      left.estimator.latest = 2 ∧ left.sent.map (·.requestId) = [1] ∧
      left.estimator.phase = .dispatched := by
  decide +kernel

end Session

end PromptPack
