import PromptPack.Proofs.Estimation.Changes

/-! The quiet time. While something waits the timer of the current generation is armed, in whatever
order calls, results and late firings come, so nothing is stranded; and a timer that is not armed
does nothing when it fires. What waits leaves in one batch, so a burst of requests sends the last
text of each file that it changed. Main statement: `pending_sent_once`. -/

namespace PromptPack

open Recount (lastText)

theorem Recount.ne_nil_of_lastText {since : List Recount} {path text : String}
    (h : lastText since path = some text) : since ≠ [] := by
  rintro rfl
  cases h

namespace Estimator

/-- What waits has its timer; without a quiet time nothing waits. -/
structure Guarded (s : Estimator) : Prop where
  armed : s.interval.le (.int 0) = false → s.pending ≠ [] → s.timer = some s.generation
  newest : ∀ generation ∈ s.timer, generation = s.generation
  immediate : s.interval.le (.int 0) = true → s.pending = []

structure Spent (generation : Nat) (s : Estimator) : Prop where
  past : generation ≤ s.generation
  disarmed : s.timer ≠ some generation

inductive Rearms (s t : Estimator) : Prop where
  | stays (timer : t.timer = s.timer) (generation : t.generation = s.generation)
      (pending : t.pending = s.pending ∨ t.pending = [])
  | stops (timer : t.timer = none) (generation : s.generation ≤ t.generation)
      (pending : t.pending = [])
  | restarts (timer : t.timer = some t.generation) (generation : t.generation = s.generation + 1)
      (timed : s.interval.le (.int 0) = false)

variable {s t : Estimator} {generation : Nat}

theorem rearms_dispatch (s : Estimator) (newer : s.generation ≤ generation) :
    Rearms s (dispatch { s with timer := none, generation }).state := by
  obtain ⟨latest, outstanding, stats, state⟩ :=
    exists_dispatch { s with timer := none, generation }
  rw [state]
  exact .stops rfl newer rfl

theorem rearms_fire (s : Estimator) (generation : Nat) :
    Rearms s (s.fire generation).state := by
  unfold fire
  split
  · exact rearms_dispatch s (Nat.le_refl _)
  · exact .stays rfl rfl (.inl rfl)

theorem rearms_run (s : Estimator) (r : Request) : Rearms s (r.run s).state := by
  obtain ⟨_, _, _, _, _, _, queued⟩ := r.exists_queued s
  by_cases found : r.changed s = []
  · have pending := r.pending_adopted s
    rw [(Request.run_of_unchanged found).2.1]
    rw [← Request.queued_of_unchanged found] at pending ⊢
    refine .stays (by rw [queued]) (by rw [queued]) ?_
    rw [pending]
    split
    · exact .inl rfl
    · exact .inr rfl
  · cases immediate : s.interval.le (.int 0) with
    | false =>
      rw [(Request.run_of_timed found immediate).2.2]
      refine .restarts rfl ?_ immediate
      change (r.queued s).generation + 1 = _
      rw [queued]
    | true =>
      rw [(Request.run_of_immediate found immediate).1]
      refine .stops rfl ?_ rfl
      change s.generation ≤ (r.queued s).generation + 1
      rw [queued]
      exact Nat.le_succ _

theorem Guarded.rearms (h : s.Guarded) (interval : t.interval = s.interval) (event : Rearms s t) :
    t.Guarded := by
  cases event with
  | stays timer generation pending =>
    refine ⟨fun timed waits => ?_, ?_, fun immediate => ?_⟩
    · have same : t.pending = s.pending := pending.resolve_right waits
      rw [timer, generation]
      exact h.armed (interval ▸ timed) (same ▸ waits)
    · rw [timer, generation]
      exact h.newest
    · rcases pending with same | none
      · rw [same]
        exact h.immediate (interval ▸ immediate)
      · exact none
  | stops timer _ pending =>
    exact ⟨fun _ waits => absurd pending waits, by simp [timer], fun _ => pending⟩
  | restarts timer _ timed =>
    refine ⟨fun _ _ => timer, by simp [timer], fun immediate => ?_⟩
    rw [interval, timed] at immediate
    cases immediate

theorem Rearms.generation_le (event : Rearms s t) : s.generation ≤ t.generation := by
  cases event with
  | stays _ same => exact Nat.le_of_eq same.symm
  | stops _ newer => exact newer
  | restarts _ next => exact next ▸ Nat.le_succ _

theorem Spent.rearms (h : s.Spent generation) (event : Rearms s t) : t.Spent generation where
  past := Nat.le_trans h.past event.generation_le
  disarmed := by
    cases event with
    | stays timer => exact timer ▸ h.disarmed
    | stops timer => simp [timer]
    | restarts timer next =>
      have past := h.past
      rw [timer, Option.some_inj.ne]
      omega

theorem Guarded.fire_of_ne (h : s.Guarded) (disarmed : s.timer ≠ some generation) :
    s.fire generation = { answer := .ok none, state := s } := by
  unfold fire
  split
  · next current =>
    -- No timer is armed at all, so nothing waits.
    have stopped : s.timer = none :=
      Option.eq_none_iff_forall_ne_some.mpr fun other armed =>
        disarmed (armed.trans (congrArg some ((h.newest other armed).trans current.symm)))
    have nothing : s.pending = [] := by
      cases immediate : s.interval.le (.int 0) with
      | true => exact h.immediate immediate
      | false =>
        by_contra waits
        exact disarmed ((h.armed immediate waits).trans (congrArg some current.symm))
    have same : { s with timer := none } = s := by rw [← stopped]
    rw [same, dispatch_of_nil nothing]
  · rfl

end Estimator

/-- Within a burst come requests under the same settings, and results. -/
def EstimationEvent.InBurst (settings : Settings) (strategy : Strategy) : EstimationEvent → Prop
  | .recompute q => q.settings = settings ∧ q.strategy = strategy
  | .deliver _ _ => True
  | _ => False

namespace Session

variable {encodings : Encodings} {w : Session} {interval : Number}

structure Steady (interval : Number) (w : Session) : Prop where
  interval : w.estimator.interval = interval
  paths : w.estimator.pending.keys.Nodup

namespace Steady

theorem start (interval : Number) (worker : Worker) : Steady interval (.start interval worker) :=
  ⟨rfl, List.nodup_nil⟩

theorem keptOn : KeptOn encodings (Steady interval) where
  timer _ _ _ h := ⟨h.interval, h.paths⟩
  base _ _ _ _ h := ⟨h.interval, h.paths⟩
  reset _ _ _ h := ⟨h.interval, List.nodup_nil⟩
  enqueue _ _ _ h := ⟨h.interval, Table.nodup_keys_setEach h.paths _⟩
  dispatch w h := by
    rcases after_dispatch_cases w with same | same | same
    · rw [same]
      exact h
    · rw [same]
      exact ⟨h.interval, List.nodup_nil⟩
    · rw [same]
      exact ⟨h.interval, List.nodup_nil⟩
  deliver w batch _ failure h := by
    rcases delivered_cases w batch failure with same | same
    · rw [same]
      exact ⟨h.interval, h.paths⟩
    · rw [same]
      exact ⟨h.interval, h.paths⟩
  worker _ _ h := ⟨h.interval, h.paths⟩
  forget _ h := ⟨h.interval, List.nodup_nil⟩

end Steady

theorem exists_step_deliver (encodings : Encodings) (w : Session) (requestId : Int)
    (failure : Option String) :
    ∃ outstanding tokenMap stats awaited returned,
      w.step encodings (.deliver requestId failure) = { w with
        estimator := { w.estimator with outstanding, tokenMap, stats }
        awaited, returned } := by
  unfold step
  dsimp only
  split
  · next batch _ =>
    rcases delivered_cases w batch failure with same | same
    · rw [same]
      exact ⟨_, _, _, _, _, rfl⟩
    · rw [same]
      exact ⟨_, _, _, _, _, rfl⟩
  · exact ⟨_, _, _, _, _, rfl⟩

theorem rearms_step (w : Session) (event : EstimationEvent) :
    w.estimator.Rearms (w.step encodings event).estimator := by
  cases event with
  | recompute r => exact Estimator.rearms_run w.estimator r
  | flush => exact Estimator.rearms_dispatch w.estimator (Nat.le_succ _)
  | fire generation => exact Estimator.rearms_fire w.estimator generation
  | deliver requestId failure =>
    obtain ⟨_, _, _, _, _, same⟩ := exists_step_deliver encodings w requestId failure
    rw [same]
    exact .stays rfl rfl (.inl rfl)
  | close => exact .stops rfl (Nat.le_succ _) rfl

theorem guarded_runOn (encodings : Encodings) (interval : Number) (worker : Worker)
    (moves : List (Worker × EstimationEvent)) :
    ((start interval worker).runOn encodings moves).estimator.Guarded := by
  have steady : KeptOn encodings (Steady interval) := Steady.keptOn
  induction moves using List.reverseRecOn with
  | nil => exact ⟨fun _ waits => absurd rfl waits, nofun, fun _ => rfl⟩
  | append_singleton moves move ih =>
    rw [runOn_concat]
    have before := steady.runOn (.start interval worker) moves
    have after := steady.stepOn before move
    have met : (((start interval worker).runOn encodings moves).withWorker
        move.1).estimator.Guarded := ⟨ih.armed, ih.newest, ih.immediate⟩
    exact met.rearms (after.interval.trans before.interval.symm) (rearms_step _ move.2)

theorem generation_le_runOn (encodings : Encodings) (w : Session)
    (moves : List (Worker × EstimationEvent)) :
    w.estimator.generation ≤ (w.runOn encodings moves).estimator.generation := by
  induction moves generalizing w with
  | nil => exact Nat.le_refl _
  | cons move moves ih =>
    exact Nat.le_trans (rearms_step (w.withWorker move.1) move.2).generation_le (ih _)

theorem spent_runOn (encodings : Encodings) {generation : Nat}
    (h : w.estimator.Spent generation) (moves : List (Worker × EstimationEvent)) :
    (w.runOn encodings moves).estimator.Spent generation := by
  induction moves generalizing w with
  | nil => exact h
  | cons move moves ih =>
    have met : (w.withWorker move.1).estimator.Spent generation := ⟨h.past, h.disarmed⟩
    exact ih (met.rearms (rearms_step _ move.2))

/-- A timer that was stopped or superseded is not armed again. -/
theorem disarmed_runOn {generation : Nat} {between : List (Worker × EstimationEvent)}
    (guarded : w.estimator.Guarded) (armed : w.estimator.timer = some generation)
    (disarmed : (w.runOn encodings between).estimator.timer ≠ some generation)
    (after : List (Worker × EstimationEvent)) :
    ((w.runOn encodings between).runOn encodings after).estimator.timer ≠ some generation := by
  have past := generation_le_runOn encodings w between
  rw [← guarded.newest generation armed] at past
  exact (spent_runOn encodings ⟨past, disarmed⟩ after).disarmed

theorem step_fire_of_ne {generation : Nat} (guarded : w.estimator.Guarded)
    (disarmed : w.estimator.timer ≠ some generation) : w.step encodings (.fire generation) = w := by
  change w.after (w.estimator.fire generation) = w
  rw [guarded.fire_of_ne disarmed, after_of_submitted_eq_none w rfl]
  rfl

structure Empties (w left : Session) : Prop where
  pending : left.estimator.pending = []
  nothing : w.estimator.pending = [] → left.sent = w.sent
  batch : w.estimator.pending ≠ [] → w.estimator.worker.accepts = true →
    ∃ batch, left.sent = w.sent ++ [batch] ∧ (Table.keys batch.files).Nodup ∧
      ∀ path text, w.estimator.pending.get? path = some text →
        Table.get? batch.files path = some text

theorem empties_dispatch (distinct : w.estimator.pending.keys.Nodup) (generation : Nat) :
    Empties w (w.after (Estimator.dispatch { w.estimator with timer := none, generation })) := by
  let stopped := w.withEstimator { w.estimator with timer := none, generation }
  change Empties w (stopped.after stopped.estimator.dispatch)
  refine ⟨Estimator.pending_dispatch stopped.estimator, fun nothing => ?_, fun waits accepts => ?_⟩
  · rw [after_dispatch_of_nil (w := stopped) nothing]
    rfl
  · rw [after_dispatch_of_pending (w := stopped) waits accepts]
    exact ⟨stopped.estimator.nextBatch, rfl,
      Estimator.nodup_nextFiles (s := stopped.estimator) distinct,
      fun _ _ held => Estimator.get?_nextFiles_of_pending (s := stopped.estimator) held⟩

/-- The quiet time is over: the armed timer fires, or what waits is to be sent without waiting. -/
def Ends (w : Session) (event : EstimationEvent) : Prop :=
  event = .flush ∨ event = .fire w.estimator.generation

theorem empties_step {event : EstimationEvent} (distinct : w.estimator.pending.keys.Nodup)
    (ends : w.Ends event) : Empties w (w.step encodings event) := by
  rcases ends with rfl | rfl
  · exact empties_dispatch distinct (w.estimator.generation + 1)
  · unfold step Estimator.fire
    dsimp only
    rw [if_pos rfl]
    exact empties_dispatch distinct w.estimator.generation

/-! A burst. -/

def Finds (encodings : Encodings) (u : Session) (moves : List (Worker × EstimationEvent))
    (path : String) : Prop :=
  ∃ front met q back, moves = front ++ (met, .recompute q) :: back ∧
    (q.changed ((u.runOn encodings front).withWorker met).estimator).has path = true

/-- What a burst changed is sent in one batch, each file with the text that was found last. -/
def SendsLast (encodings : Encodings) (u left : Session)
    (burst : List (Worker × EstimationEvent)) : Prop :=
  (∃ path, Finds encodings u burst path) →
    ∃ batch, left.sent = u.sent ++ [batch] ∧ (Table.keys batch.files).Nodup ∧
      ∀ path, Finds encodings u burst path →
        ∃ text, lastText (recounts encodings u burst) path = some text ∧
          Table.get? batch.files path = some text

structure Bursting (settings : Settings) (strategy : Strategy) (u w : Session)
    (since : List Recount) (found : String → Prop) : Prop where
  sent : w.sent = u.sent
  basis : since ≠ [] → w.estimator.isBasis settings strategy = true
  fingerprints : ∀ path text, lastText since path = some text →
    w.estimator.fingerprints.get? path = some text
  waits : ∀ path, found path →
    w.estimator.pending.has path = true ∧ (lastText since path).isSome

variable {u : Session} {moves : List (Worker × EstimationEvent)} {settings : Settings}
  {strategy : Strategy} {path : String}

theorem finds_concat {move : Worker × EstimationEvent}
    (h : Finds encodings u (moves ++ [move]) path) :
    Finds encodings u moves path ∨ ∃ q, move.2 = .recompute q ∧
      (q.changed ((u.runOn encodings moves).withWorker move.1).estimator).has path = true := by
  obtain ⟨front, met, q, back, split, found⟩ := h
  cases back using List.reverseRecOn with
  | nil =>
    obtain ⟨rfl, same⟩ := List.append_inj' split rfl
    obtain rfl := List.singleton_inj.mp same
    exact .inr ⟨q, rfl, found⟩
  | append_singleton back last =>
    rw [← List.cons_append, ← List.append_assoc] at split
    exact .inl ⟨front, met, q, back, (List.append_inj' split rfl).1, found⟩

namespace Bursting

variable {since : List Recount} {found : String → Prop} {q : Request}

theorem recompute (h : Bursting settings strategy u w since found)
    (equal : settings.same settings = true) (timed : w.estimator.interval.le (.int 0) = false)
    (asks : q.settings = settings) (counts : q.strategy = strategy) :
    Bursting settings strategy u (w.after (q.run w.estimator))
      (since ++ [⟨q, q.counted w.estimator⟩])
      fun path => found path ∨ (q.changed w.estimator).has path = true := by
  subst asks counts
  refine ⟨?_, fun _ => ?_, fun path text last => ?_, fun path listed => ?_⟩
  · rw [after_of_submitted_eq_none w (Request.submitted_of_timed timed)]
    exact h.sent
  · rw [Estimator.isBasis, (sameQuestion_queued w q).basis]
    exact Estimator.isBasis_adopt (s := (q.base w.estimator).state) q.strategy equal
  · rw [Recount.lastText_concat] at last
    change (q.run w.estimator).state.fingerprints.get? path = some text
    rw [q.fingerprints_run, q.fingerprints_queued]
    cases counted : (q.counted w.estimator).get? path with
    | some _ => rwa [counted] at last
    | none =>
      rw [counted, Option.none_or] at last
      rw [Option.none_or, if_pos (h.basis (Recount.ne_nil_of_lastText last))]
      exact h.fingerprints path text last
  · have pending : (q.run w.estimator).state.pending = (q.queued w.estimator).pending := by
      rw [q.pending_run, if_neg fun both => Bool.false_ne_true (timed.symm.trans both.2)]
    change ((q.run w.estimator).state.pending.get? path).isSome = true ∧ _
    rw [pending, q.get?_pending_queued, Recount.lastText_concat, Option.isSome_or,
      Option.isSome_or, Bool.or_eq_true, Bool.or_eq_true]
    rcases listed with before | now
    · obtain ⟨waited, last⟩ := h.waits path before
      obtain ⟨text, known⟩ := Option.isSome_iff_exists.mp last
      rw [if_pos (h.basis (Recount.ne_nil_of_lastText known))]
      exact ⟨.inr waited, .inr last⟩
    · have counted : ((q.counted w.estimator).get? path).isSome = true :=
        Table.has_iff.mpr ((List.filter_sublist.map Prod.fst).subset (Table.has_iff.mp now))
      exact ⟨.inl now, .inl counted⟩

theorem runOn (encodings : Encodings) (equal : settings.same settings = true)
    (steady : Steady interval u) (timed : interval.le (.int 0) = false)
    (burst : ∀ move ∈ moves, move.2.InBurst settings strategy) :
    Bursting settings strategy u (u.runOn encodings moves) (recounts encodings u moves)
      (Finds encodings u moves) := by
  induction moves using List.reverseRecOn with
  | nil =>
    refine ⟨rfl, fun some => absurd rfl some, nofun, ?_⟩
    rintro path ⟨front, met, q, back, split, -⟩
    simp at split
  | append_singleton moves move ih =>
    obtain ⟨burst, last⟩ := List.forall_mem_append.mp burst
    have last := last move List.mem_cons_self
    obtain ⟨sent, basis, fingerprints, waits⟩ := ih burst
    have kept : KeptOn encodings (Steady interval) := Steady.keptOn
    have steady := kept.worker _ move.1 (kept.runOn steady moves)
    have before : Bursting settings strategy u ((u.runOn encodings moves).withWorker move.1)
        (recounts encodings u moves) (Finds encodings u moves) :=
      ⟨sent, basis, fingerprints, waits⟩
    rw [runOn_concat, recounts_concat]
    obtain ⟨now, event⟩ := move
    cases event with
    | recompute q =>
      obtain ⟨sent, basis, fingerprints, waits⟩ :=
        before.recompute equal (steady.interval ▸ timed) last.1 last.2
      refine ⟨sent, basis, fingerprints, fun path found => waits path ?_⟩
      rcases finds_concat found with earlier | ⟨_, same, found⟩
      · exact .inl earlier
      · obtain rfl := EstimationEvent.recompute.inj same
        exact .inr found
    | deliver requestId failure =>
      obtain ⟨_, _, _, _, _, step⟩ := exists_step_deliver encodings
        ((u.runOn encodings moves).withWorker now) requestId failure
      change Bursting _ _ _ (((u.runOn encodings moves).withWorker now).step _ _) (_ ++ []) _
      rw [step, List.append_nil]
      refine ⟨before.sent, before.basis, before.fingerprints, fun path found => ?_⟩
      rcases finds_concat found with earlier | ⟨_, same, _⟩
      · exact before.waits path earlier
      · cases same
    | _ => exact last.elim

theorem exists_text (h : Bursting settings strategy u w since found)
    (current : Estimator.Current w.estimator.fingerprints w.estimator.pending)
    (listed : found path) :
    ∃ text, lastText since path = some text ∧ w.estimator.pending.get? path = some text := by
  obtain ⟨waits, last⟩ := h.waits path listed
  obtain ⟨text, held⟩ := Option.isSome_iff_exists.mp waits
  obtain ⟨latest, last⟩ := Option.isSome_iff_exists.mp last
  have same : some text = some latest :=
    (current path text held).symm.trans (h.fingerprints path latest last)
  exact ⟨text, last.trans same.symm, held⟩

theorem sendsLast {left : Session} {burst : List (Worker × EstimationEvent)}
    (h : Bursting settings strategy u w (recounts encodings u burst) (Finds encodings u burst))
    (current : Estimator.Current w.estimator.fingerprints w.estimator.pending)
    (accepts : w.estimator.worker.accepts = true) (empties : Empties w left) :
    SendsLast encodings u left burst := by
  rintro ⟨path, found⟩
  obtain ⟨text, -, held⟩ := h.exists_text current found
  have waits : w.estimator.pending ≠ [] := by
    intro nothing
    rw [nothing] at held
    cases held
  obtain ⟨batch, sent, distinct, holds⟩ := empties.batch waits accepts
  refine ⟨batch, h.sent ▸ sent, distinct, fun path found => ?_⟩
  obtain ⟨text, last, held⟩ := h.exists_text current found
  exact ⟨text, last, holds path text held⟩

end Bursting

/-- In every run what waits has its timer, and without a quiet time nothing waits. A timer that is
not armed, or not any more, does nothing when it fires; when the armed one fires, or at a flush,
everything that waits leaves in one batch. So a burst sends nothing until then, and then the last
text of each file that it changed; its settings hold no not-a-number, or each request would start
afresh. -/
theorem pending_sent_once (encodings : Encodings) (interval : Number) (worker now : Worker)
    (moves : List (Worker × EstimationEvent)) :
    let w := (start interval worker).runOn encodings moves
    w.estimator.interval = interval ∧ w.estimator.Guarded ∧
      (∀ generation, generation ≠ w.estimator.generation ∨ w.estimator.timer ≠ some generation →
        w.step encodings (.fire generation) = w) ∧
      (∀ before between after generation, moves = before ++ between ++ after →
        ((start interval worker).runOn encodings before).estimator.timer = some generation →
        ((start interval worker).runOn encodings (before ++ between)).estimator.timer ≠
          some generation →
        w.step encodings (.fire generation) = w) ∧
      ∀ event, w.Ends event →
        Empties (w.withWorker now) (w.stepOn encodings (now, event)) ∧
          ∀ settings strategy before burst, moves = before ++ burst →
            interval.le (.int 0) = false → settings.same settings = true → now.accepts = true →
            (∀ move ∈ burst, move.2.InBurst settings strategy) →
            SendsLast encodings ((start interval worker).runOn encodings before)
              (w.stepOn encodings (now, event)) burst := by
  intro w
  have kept : KeptOn encodings (Steady interval) := Steady.keptOn
  have steady : Steady interval w := kept.runOn (.start interval worker) moves
  have guarded (moves : List (Worker × EstimationEvent)) :
      ((start interval worker).runOn encodings moves).estimator.Guarded :=
    guarded_runOn encodings interval worker moves
  refine ⟨steady.interval, guarded moves, ?_, ?_, ?_⟩
  · rintro generation (other | disarmed)
    · have older : w.estimator.timer ≠ some generation :=
        fun armed => other ((guarded moves).newest generation armed)
      exact step_fire_of_ne (guarded moves) older
    · exact step_fire_of_ne (guarded moves) disarmed
  · rintro before between after generation rfl armed disarmed
    refine step_fire_of_ne (guarded _) ?_
    rw [runOn_append] at disarmed
    have stopped := disarmed_runOn (guarded before) armed disarmed after
    rwa [← runOn_append, ← runOn_append, ← List.append_assoc] at stopped
  · intro event ends
    have empties : Empties (w.withWorker now) (w.stepOn encodings (now, event)) :=
      empties_step (w := w.withWorker now) steady.paths ends
    refine ⟨empties, ?_⟩
    rintro settings strategy before burst rfl timed equal accepts within
    have goes := Bursting.runOn encodings equal
      (kept.runOn (.start interval worker) before) timed within
    rw [← runOn_append] at goes
    have ordered : Ordered w := Ordered.keptOn.runOn (.start interval worker) _
    have met : Bursting settings strategy _ (w.withWorker now) _ _ :=
      ⟨goes.sent, goes.basis, goes.fingerprints, goes.waits⟩
    exact met.sendsLast ordered.current accepts empties

/-- An edit that is taken back before the timer fires is sent as it was, and the timer of the edit
fires too late. -/
theorem pending_sent_once_reverted :
    let encodings : Encodings := fun _ => .ok .characters
    let before : List (Worker × EstimationEvent) :=
      [(.shared, .recompute twoFiles), (.shared, .flush)]
    let edit : List (Worker × EstimationEvent) := [(.shared, .recompute editedFiles)]
    let back : List (Worker × EstimationEvent) :=
      [(.shared, .deliver 1 none), (.shared, .recompute twoFiles)]
    let w := (start (.int 1) .shared).runOn encodings (before ++ edit ++ back)
    w.estimator.timer = some w.estimator.generation ∧
      w.estimator.pending = [("a.py", "x"), ("c.py", "z"), ("d.py", "")] ∧
      w.step encodings (.fire 3) = w ∧
      ∃ batch, (w.stepOn encodings (.shared, .fire 4)).sent.tail = [batch] ∧
        Table.get? batch.files "a.py" = some "x" := by
  intro encodings before edit back w
  obtain ⟨interval, guarded, -, spent, sends⟩ :=
    pending_sent_once encodings (.int 1) .shared .shared (before ++ edit ++ back)
  have waits : w.estimator.pending = [("a.py", "x"), ("c.py", "z"), ("d.py", "")] := by
    decide +kernel
  have timed : (Number.int 1).le (.int 0) = false := by decide +kernel
  have armed : w.estimator.timer = some w.estimator.generation :=
    guarded.armed ((congrArg (Number.le · (.int 0)) interval).trans timed) (by rw [waits]; decide)
  refine ⟨armed, waits, ?_, ?_⟩
  · exact spent (before ++ edit) back [] 3 (by simp) (by decide +kernel) (by decide +kernel)
  · have ends : w.Ends (.fire 4) := .inr (congrArg EstimationEvent.fire (by decide +kernel))
    have within : ∀ move ∈ edit ++ back, move.2.InBurst {} .approx := by
      simp [edit, back, EstimationEvent.InBurst, editedFiles, twoFiles, Request.ofTexts]
    have found : Finds encodings ((start (.int 1) .shared).runOn encodings before) (edit ++ back)
        "a.py" := ⟨[], .shared, editedFiles, back, rfl, by decide +kernel⟩
    obtain ⟨batch, sent, -, holds⟩ := (sends (.fire 4) ends).2 {} .approx before (edit ++ back)
      (List.append_assoc ..) timed (by decide +kernel) rfl within ⟨_, found⟩
    obtain ⟨text, last, held⟩ := holds "a.py" found
    refine ⟨batch, by rw [sent]; rfl, held.trans (last.symm.trans ?_)⟩
    decide +kernel

end Session

end PromptPack
