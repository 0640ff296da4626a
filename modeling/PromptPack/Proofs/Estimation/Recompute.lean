import PromptPack.Proofs.Estimation.Coverage

/-! What a recomputation does. Until it sends it touches the fingerprints, what waits, the basis and
the cache, and nothing else; then it stops, arms the timer anew, or sends everything that waits. -/

namespace PromptPack

namespace Estimator

variable {s : Estimator}

theorem schedule_of_timed (timed : s.interval.le (.int 0) = false) :
    s.schedule = { answer := .ok (), state := { s.cancelTimer with
      timer := some s.cancelTimer.generation } } := by
  unfold schedule
  dsimp only
  have later : ¬ s.cancelTimer.interval.le (.int 0) = true := by
    change ¬ s.interval.le (.int 0) = true
    rw [timed]
    exact Bool.false_ne_true
  rw [if_neg later]

theorem schedule_of_immediate (immediate : s.interval.le (.int 0) = true) :
    s.schedule = { s.cancelTimer.dispatch with
      answer := s.cancelTimer.dispatch.answer.map fun _ => () } := by
  unfold schedule
  dsimp only
  exact if_pos immediate

theorem pending_dispatch (s : Estimator) : s.dispatch.state.pending = [] := by
  obtain ⟨_, _, _, state⟩ := s.exists_dispatch
  rw [state]

end Estimator

namespace Request

variable {r : Request} {s : Estimator}

theorem exists_base (r : Request) (s : Estimator) :
    ∃ cache stats, (r.base s).state = { s with cache, stats } := by
  unfold base Estimator.base
  split
  · exact ⟨_, _, rfl⟩
  · dsimp only
    split <;> exact ⟨_, _, rfl⟩

theorem isBasis_base (r : Request) (s : Estimator) (settings : Settings) (strategy : Strategy) :
    (r.base s).state.isBasis settings strategy = s.isBasis settings strategy := by
  obtain ⟨cache, stats, state⟩ := r.exists_base s
  rw [state]
  rfl

theorem adopted_of_basis (known : s.isBasis r.settings r.strategy = true) :
    r.adopted s = (r.base s).state := by
  unfold adopted Estimator.adopt
  rw [if_pos ((r.isBasis_base s _ _).trans known)]

theorem adopted_of_change (other : s.isBasis r.settings r.strategy = false) :
    r.adopted s = { (r.base s).state with
      fingerprints := []
      pending := []
      basis := some (r.settings, r.strategy)
      strategy := r.strategy } := by
  unfold adopted Estimator.adopt
  rw [if_neg (by rw [r.isBasis_base s, other]; decide)]

theorem fingerprints_adopted (r : Request) (s : Estimator) :
    (r.adopted s).fingerprints =
      if s.isBasis r.settings r.strategy then s.fingerprints else [] := by
  cases known : s.isBasis r.settings r.strategy with
  | true =>
    obtain ⟨cache, stats, state⟩ := r.exists_base s
    rw [adopted_of_basis known, state]
    rfl
  | false =>
    rw [adopted_of_change known]
    rfl

theorem pending_adopted (r : Request) (s : Estimator) :
    (r.adopted s).pending = if s.isBasis r.settings r.strategy then s.pending else [] := by
  cases known : s.isBasis r.settings r.strategy with
  | true =>
    obtain ⟨cache, stats, state⟩ := r.exists_base s
    rw [adopted_of_basis known, state]
    rfl
  | false =>
    rw [adopted_of_change known]
    rfl

theorem exists_queued (r : Request) (s : Estimator) :
    ∃ fingerprints pending basis strategy cache stats,
      r.queued s = { s with fingerprints, pending, basis, strategy, cache, stats } := by
  obtain ⟨cache, stats, state⟩ := r.exists_base s
  unfold queued
  cases known : s.isBasis r.settings r.strategy with
  | true =>
    rw [adopted_of_basis known, state]
    exact ⟨_, _, _, _, _, _, rfl⟩
  | false =>
    rw [adopted_of_change known, state]
    exact ⟨_, _, _, _, _, _, rfl⟩

theorem queued_of_unchanged (h : r.changed s = []) : r.queued s = r.adopted s := by
  rw [queued, h]
  rfl

theorem pending_queued (r : Request) (s : Estimator) :
    (r.queued s).pending = (r.adopted s).pending.setEach (r.changed s) := rfl

theorem run_of_unchanged (h : r.changed s = []) :
    (r.run s).answer = .ok 0 ∧ (r.run s).state = r.adopted s ∧ (r.run s).submitted = none := by
  rw [← queued_of_unchanged h]
  unfold run Estimator.recompute
  dsimp only
  change (if (r.changed s).isEmpty then _ else _ : Turn Nat).answer = _ ∧
    (if (r.changed s).isEmpty then _ else _ : Turn Nat).state = _ ∧
    (if (r.changed s).isEmpty then _ else _ : Turn Nat).submitted = _
  rw [if_pos (by rw [h]; rfl)]
  exact ⟨rfl, rfl, rfl⟩

theorem run_of_changed (h : r.changed s ≠ []) :
    (r.run s).answer = (r.queued s).schedule.answer.map (fun _ => (r.changed s).length) ∧
      (r.run s).state = (r.queued s).schedule.state ∧
      (r.run s).submitted = (r.queued s).schedule.submitted := by
  unfold run Estimator.recompute
  dsimp only
  change (if (r.changed s).isEmpty then _ else _ : Turn Nat).answer = _ ∧
    (if (r.changed s).isEmpty then _ else _ : Turn Nat).state = _ ∧
    (if (r.changed s).isEmpty then _ else _ : Turn Nat).submitted = _
  rw [if_neg (by simpa using h)]
  exact ⟨rfl, rfl, rfl⟩

theorem interval_queued (r : Request) (s : Estimator) : (r.queued s).interval = s.interval := by
  obtain ⟨_, _, _, _, _, _, queued⟩ := r.exists_queued s
  rw [queued]

theorem worker_queued (r : Request) (s : Estimator) : (r.queued s).worker = s.worker := by
  obtain ⟨_, _, _, _, _, _, queued⟩ := r.exists_queued s
  rw [queued]

theorem get?_changed (r : Request) (s : Estimator) (path : String) :
    (r.changed s).get? path = ((r.counted s).get? path).filter fun text =>
      (if s.isBasis r.settings r.strategy then s.fingerprints.get? path else none) !=
        some text := by
  have keys : (r.counted s).keys.Nodup := Table.nodup_keys_ofList _
  rw [changed, Estimator.get?_changed keys, fingerprints_adopted]
  split <;> rfl

theorem changed_eq_nil_of_current (known : s.isBasis r.settings r.strategy = true)
    (current : Estimator.Current s.fingerprints (r.counted s)) : r.changed s = [] := by
  have keys : (r.counted s).keys.Nodup := Table.nodup_keys_ofList _
  apply List.filter_eq_nil_iff.mpr
  rintro ⟨path, text⟩ member
  have adopted : (r.adopted s).fingerprints = s.fingerprints := by
    rw [fingerprints_adopted, if_pos known]
  simp [adopted, current path text (Table.get?_of_mem keys member)]

theorem fingerprints_queued (r : Request) (s : Estimator) (path : String) :
    (r.queued s).fingerprints.get? path = ((r.counted s).get? path).or
      (if s.isBasis r.settings r.strategy then s.fingerprints.get? path else none) := by
  have keys : (r.counted s).keys.Nodup := Table.nodup_keys_ofList _
  rw [queued, changed, Estimator.fingerprints_enqueue keys, fingerprints_adopted]
  split <;> rfl

theorem get?_pending_queued (r : Request) (s : Estimator) (path : String) :
    (r.queued s).pending.get? path = ((r.changed s).get? path).or
      (if s.isBasis r.settings r.strategy then s.pending.get? path else none) := by
  have keys : (r.counted s).keys.Nodup := Table.nodup_keys_ofList _
  rw [queued, changed, Estimator.pending_enqueue keys, pending_adopted]
  split <;> rfl

theorem pending_queued_ne_nil (h : r.changed s ≠ []) : (r.queued s).pending ≠ [] := by
  obtain ⟨⟨path, text⟩, rest, front⟩ := List.exists_cons_of_ne_nil h
  intro nothing
  have distinct : (r.changed s).keys.Nodup :=
    Estimator.nodup_changed (Table.nodup_keys_ofList _)
  have waits : (r.queued s).pending.get? path = some text := by
    rw [pending_queued, Table.get?_setEach_of_nodup _ distinct,
      Table.get?_of_mem distinct (front ▸ List.mem_cons_self), Option.some_or]
  rw [nothing] at waits
  cases waits

/-- With a quiet time the timer is armed anew and nothing is sent. -/
theorem run_of_timed (h : r.changed s ≠ []) (timed : s.interval.le (.int 0) = false) :
    (r.run s).answer = .ok (r.changed s).length ∧ (r.run s).submitted = none ∧
      (r.run s).state = { (r.queued s).cancelTimer with
        timer := some (r.queued s).cancelTimer.generation } := by
  obtain ⟨answer, state, submitted⟩ := run_of_changed h
  rw [← r.interval_queued s] at timed
  rw [Estimator.schedule_of_timed timed] at answer state submitted
  exact ⟨answer, submitted, state⟩

/-- Without one everything that waits is sent, and is gone even if the worker refuses it. -/
theorem run_of_immediate (h : r.changed s ≠ []) (immediate : s.interval.le (.int 0) = true) :
    (r.run s).state = (r.queued s).cancelTimer.sent (r.queued s).cancelTimer.nextBatch ∧
      (r.run s).answer =
        (if s.worker.accepts then .ok (r.changed s).length else .error .shutDown) ∧
      (r.run s).submitted =
        if s.worker.accepts then some (r.queued s).cancelTimer.nextBatch else none := by
  obtain ⟨answer, state, submitted⟩ := run_of_changed h
  rw [← r.interval_queued s] at immediate
  rw [Estimator.schedule_of_immediate immediate] at answer state submitted
  have waits : (r.queued s).cancelTimer.pending ≠ [] := pending_queued_ne_nil h
  have worker : (r.queued s).cancelTimer.worker = s.worker := r.worker_queued s
  cases accepts : s.worker.accepts with
  | true =>
    rw [Estimator.dispatch_of_pending waits (worker ▸ accepts)] at answer state submitted
    exact ⟨state, answer, submitted⟩
  | false =>
    rw [Estimator.dispatch_of_refused waits (worker ▸ accepts)] at answer state submitted
    exact ⟨state, answer, submitted⟩

theorem fingerprints_run (r : Request) (s : Estimator) :
    (r.run s).state.fingerprints = (r.queued s).fingerprints :=
  (Session.sameQuestion_queued { estimator := s } r).fingerprints

theorem pending_run (r : Request) (s : Estimator) :
    (r.run s).state.pending =
      if r.changed s ≠ [] ∧ s.interval.le (.int 0) = true then [] else (r.queued s).pending := by
  by_cases found : r.changed s = []
  · rw [if_neg fun both => both.1 found, (run_of_unchanged found).2.1,
      queued_of_unchanged found]
  · cases immediate : s.interval.le (.int 0) with
    | false =>
      rw [if_neg fun both => Bool.false_ne_true both.2, (run_of_timed found immediate).2.2]
      rfl
    | true =>
      rw [if_pos ⟨found, rfl⟩, (run_of_immediate found immediate).1]
      rfl

theorem submitted_of_timed (timed : s.interval.le (.int 0) = false) :
    (r.run s).submitted = none := by
  by_cases found : r.changed s = []
  · exact (run_of_unchanged found).2.2
  · exact (run_of_timed found timed).2.1

end Request

end PromptPack
