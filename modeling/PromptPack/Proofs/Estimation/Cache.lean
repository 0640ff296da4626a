import PromptPack.Proofs.Estimation.Batch
import PromptPack.Proofs.Prune.Selection

/-! The reachability cache. What it holds is what pruning from scratch would give, so the base texts
of a recomputation do not depend on whether it was used. Only a recomputation touches it. -/

namespace PromptPack

/-- The base texts of a request, found without a cache. -/
def Request.pruned (r : Request) : Table String String :=
  if r.settings.pruningEnabled then
    (Prune.pruneSelection r.files r.raw r.settings.entryPoint r.oracle).value.contents
  else r.raw

theorem Request.plain_files (r : Request) : ∀ file ∈ r.files, file.isDir = false := by
  intro file member
  simpa using (List.mem_filter.mp member).2

namespace Estimator

/-- The cached answer is that of pruning from scratch. -/
def CacheSound (oracle : Option Oracle) (s : Estimator) : Prop :=
  ∀ cache ∈ s.cache, cache.entryPoint.truthy = true ∧
    ∃ files : List SourceFile, (∀ file ∈ files, file.isDir = false) ∧
      cache.selection = selectionKey files ∧
      cache.result =
        (Prune.pruneSelection files cache.rawContents cache.entryPoint oracle).value.contents

theorem truthy_of_pruningEnabled {settings : Settings} (h : settings.pruningEnabled = true) :
    settings.entryPoint.truthy = true := (Bool.and_eq_true_iff.mp h).2

theorem base_sound {s : Estimator} (r : Request) (sound : CacheSound r.oracle s) :
    CacheSound r.oracle (r.base s).state := by
  unfold Request.base base
  split
  · intro cache present
    cases present
  · next enabled =>
    rw [Bool.not_eq_true', Bool.not_eq_false] at enabled
    dsimp only
    split
    · exact sound
    · intro cache present
      obtain rfl := Option.some.inj present
      exact ⟨truthy_of_pruningEnabled enabled, r.files, r.plain_files, rfl, rfl⟩

theorem base_contents {s : Estimator} (r : Request) (sound : CacheSound r.oracle s)
    (consistent : ∀ o ∈ r.oracle, o.Consistent) : (r.base s).contents = r.pruned := by
  unfold Request.base Request.pruned base
  cases enabled : r.settings.pruningEnabled with
  | false => rfl
  | true =>
    rw [if_neg (by decide), if_pos rfl]
    dsimp only
    split
    · next cache hit =>
      obtain ⟨cached, answers⟩ := Option.filter_eq_some_iff.mp hit
      obtain ⟨truthy, files, plain, selection, result⟩ := sound cache cached
      simp only [ReachabilityCache.answers, Bool.and_eq_true, beq_iff_eq] at answers
      obtain ⟨⟨same, key⟩, raw⟩ := answers
      rw [result, raw]
      exact Prune.pruneSelection_congr consistent (selection.symm.trans key) plain r.plain_files
        truthy (truthy_of_pruningEnabled enabled) same
    · rfl

structure SameQuestion (s t : Estimator) : Prop where
  fingerprints : t.fingerprints = s.fingerprints
  basis : t.basis = s.basis
  strategy : t.strategy = s.strategy
  cache : t.cache = s.cache

namespace SameQuestion

theorem refl (s : Estimator) : SameQuestion s s := ⟨rfl, rfl, rfl, rfl⟩

theorem trans {s t u : Estimator} (first : SameQuestion s t) (second : SameQuestion t u) :
    SameQuestion s u :=
  ⟨second.fingerprints.trans first.fingerprints, second.basis.trans first.basis,
    second.strategy.trans first.strategy, second.cache.trans first.cache⟩

end SameQuestion

theorem sameQuestion_dispatch (s : Estimator) : SameQuestion s s.dispatch.state := by
  obtain ⟨_, _, _, state⟩ := s.exists_dispatch
  rw [state]
  exact ⟨rfl, rfl, rfl, rfl⟩

theorem sameQuestion_cancelTimer (s : Estimator) : SameQuestion s s.cancelTimer :=
  ⟨rfl, rfl, rfl, rfl⟩

theorem sameQuestion_flush (s : Estimator) : SameQuestion s s.flush.state :=
  (sameQuestion_cancelTimer s).trans (sameQuestion_dispatch s.cancelTimer)

theorem sameQuestion_schedule (s : Estimator) : SameQuestion s s.schedule.state := by
  unfold schedule
  dsimp only
  split
  · exact sameQuestion_flush s
  · exact ⟨rfl, rfl, rfl, rfl⟩

theorem sameQuestion_fire (s : Estimator) (generation : Nat) :
    SameQuestion s (s.fire generation).state := by
  unfold fire
  split
  · have disarmed : SameQuestion s { s with timer := none } := ⟨rfl, rfl, rfl, rfl⟩
    exact disarmed.trans (sameQuestion_dispatch _)
  · exact .refl _

theorem sameQuestion_applyResult (s : Estimator) (result : TokenBatchResult) :
    SameQuestion s (s.applyResult result).state := by
  unfold applyResult
  dsimp only
  split <;> exact ⟨rfl, rfl, rfl, rfl⟩

end Estimator

namespace Session

open Estimator (SameQuestion CacheSound)

variable {encodings : Encodings} {w : Session}

theorem sameQuestion_step {event : EstimationEvent} (quiet : ∀ r, event ≠ .recompute r) :
    SameQuestion w.estimator (w.step encodings event).estimator := by
  cases event with
  | recompute r => exact absurd rfl (quiet r)
  | flush => exact Estimator.sameQuestion_flush w.estimator
  | fire generation => exact Estimator.sameQuestion_fire w.estimator generation
  | deliver requestId failure =>
    unfold step
    dsimp only
    split
    · unfold delivered
      dsimp only
      unfold Estimator.deliver
      split <;> exact Estimator.sameQuestion_applyResult _ _
    · exact .refl _
  | close => exact ⟨rfl, rfl, rfl, rfl⟩

theorem sameQuestion_run {events : List EstimationEvent} (quiet : ∀ r, .recompute r ∉ events) :
    SameQuestion w.estimator (w.run encodings events).estimator := by
  induction events generalizing w with
  | nil => exact .refl _
  | cons event events ih =>
    have first : SameQuestion w.estimator (w.step encodings event).estimator :=
      sameQuestion_step fun r same => quiet r (same ▸ List.mem_cons_self)
    exact first.trans (ih fun r member => quiet r (List.mem_cons_of_mem _ member))

theorem cache_adopt (s : Estimator) (settings : Settings) (strategy : Strategy) :
    (s.adopt settings strategy).cache = s.cache := by
  unfold Estimator.adopt
  split <;> rfl

theorem sameQuestion_queued (w : Session) (r : Request) :
    SameQuestion (r.queued w.estimator) (w.after (r.run w.estimator)).estimator := by
  rw [after_run]
  split
  · exact .refl _
  · exact Estimator.sameQuestion_schedule (r.queued w.estimator)

theorem cacheSound_step {oracle : Option Oracle} {event : EstimationEvent}
    (asked : ∀ r, event = .recompute r → r.oracle = oracle)
    (sound : CacheSound oracle w.estimator) :
    CacheSound oracle (w.step encodings event).estimator := by
  by_cases quiet : ∀ r, event ≠ .recompute r
  · unfold CacheSound
    rw [(sameQuestion_step quiet).cache]
    exact sound
  · push Not at quiet
    obtain ⟨r, rfl⟩ := quiet
    obtain rfl := asked r rfl
    unfold CacheSound step
    dsimp only
    have queued : (r.queued w.estimator).cache = (r.base w.estimator).state.cache :=
      cache_adopt _ r.settings r.strategy
    rw [(sameQuestion_queued w r).cache, queued]
    exact Estimator.base_sound r sound

theorem cacheSound_run {oracle : Option Oracle} {events : List EstimationEvent}
    (asked : ∀ r, .recompute r ∈ events → r.oracle = oracle)
    (sound : CacheSound oracle w.estimator) :
    CacheSound oracle (w.run encodings events).estimator := by
  induction events generalizing w with
  | nil => exact sound
  | cons event events ih =>
    apply ih fun r member => asked r (List.mem_cons_of_mem _ member)
    exact cacheSound_step (fun r same => asked r (same ▸ List.mem_cons_self)) sound

end Session

end PromptPack
