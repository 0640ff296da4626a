import Mathlib.Data.List.Induction
import PromptPack.Proofs.Document.Value
import PromptPack.Proofs.Estimation.Settled

/-! When the oracle is asked. The cache holds the question of the last request, if that request
pruned, so a request asks exactly if it prunes and its question is another one. Each request that
prunes is either a hit or a recomputation. Main statement: `oracle_asked_iff`. -/

namespace PromptPack

namespace Request

/-- A request puts the question of an earlier one again: the same entry point, the same files in
the same order, and the same raw texts. -/
structure Repeats (r earlier : Request) : Prop where
  entryPoint : earlier.settings.entryPoint.same r.settings.entryPoint = true
  selection : Estimator.selectionKey earlier.files = Estimator.selectionKey r.files
  raw : ∀ path, earlier.raw.get? path = r.raw.get? path

theorem raw_eq_ofKeys (r : Request) :
    r.raw = Table.ofKeys (fun path => (r.contents.get? path).join) (r.files.map (·.path)) := by
  unfold raw Estimator.rawContents Table.ofKeys
  rw [List.filterMap_map]
  rfl

theorem paths_of_selection {earlier r : Request}
    (selection : Estimator.selectionKey earlier.files = Estimator.selectionKey r.files) :
    earlier.files.map (·.path) = r.files.map (·.path) := by
  have firsts := congrArg (List.map Prod.fst) selection
  simpa only [Estimator.selectionKey, List.map_map, Function.comp_def] using firsts

theorem raw_eq_iff {earlier r : Request}
    (selection : Estimator.selectionKey earlier.files = Estimator.selectionKey r.files) :
    earlier.raw = r.raw ↔ ∀ path, earlier.raw.get? path = r.raw.get? path := by
  constructor
  · intro same path
    rw [same]
  · rw [raw_eq_ofKeys, raw_eq_ofKeys, paths_of_selection selection]
    exact Table.ofKeys_congr

end Request

/-! The requests of a run. -/

def EstimationEvent.request? : EstimationEvent → Option Request
  | .recompute r => some r
  | _ => none

def requests (events : List EstimationEvent) : List Request := events.filterMap (·.request?)

theorem requests_concat_of_quiet (events : List EstimationEvent) {event : EstimationEvent}
    (quiet : ∀ r, event ≠ .recompute r) : requests (events ++ [event]) = requests events := by
  unfold requests
  rw [List.filterMap_append]
  cases event with
  | recompute r => exact absurd rfl (quiet r)
  | _ => exact List.append_nil _

theorem requests_concat (events : List EstimationEvent) (r : Request) :
    requests (events ++ [.recompute r]) = requests events ++ [r] :=
  List.filterMap_append

theorem mem_requests {events : List EstimationEvent} {r : Request} :
    r ∈ requests events ↔ .recompute r ∈ events := by
  unfold requests
  rw [List.mem_filterMap]
  constructor
  · rintro ⟨event, member, read⟩
    cases event with
    | recompute r =>
      obtain rfl := Option.some.inj read
      exact member
    | _ => cases read
  · intro member
    exact ⟨_, member, rfl⟩

def lastPruning (events : List EstimationEvent) : Option Request :=
  (requests events).getLast?.filter (·.settings.pruningEnabled)

theorem lastPruning_concat (events : List EstimationEvent) (r : Request) :
    lastPruning (events ++ [.recompute r]) = (some r).filter (·.settings.pruningEnabled) := by
  rw [lastPruning, requests_concat, List.getLast?_concat]

def EntryPointsAgree (events : List EstimationEvent) : Prop :=
  ∀ a ∈ requests events, ∀ b ∈ requests events, ∀ c ∈ requests events,
    a.settings.entryPoint.same b.settings.entryPoint = true →
      a.settings.entryPoint.same c.settings.entryPoint =
        b.settings.entryPoint.same c.settings.entryPoint

theorem entryPointsAgree_of_scalars {events : List EstimationEvent}
    (scalars : ∀ r ∈ requests events, r.settings.entryPoint.isKey = true) :
    EntryPointsAgree events :=
  fun a listed _ _ c _ same => Value.same_congr (scalars a listed) same c.settings.entryPoint

/-! One request. -/

namespace Estimator

variable {s : Estimator} {r : Request}

def hit (s : Estimator) (r : Request) : Option ReachabilityCache :=
  s.cache.filter (·.answers r.settings.entryPoint (selectionKey r.files) r.raw)

def lookups (s : Estimator) : Nat :=
  s.stats.reachabilityRecomputes + s.stats.reachabilityCacheHits

theorem base_of_plain (plain : r.settings.pruningEnabled = false) :
    r.base s = { contents := r.raw, state := { s with cache := none } } := by
  unfold Request.base base
  rw [plain]
  rfl

theorem base_of_hit (prunes : r.settings.pruningEnabled = true) {cache : ReachabilityCache}
    (found : s.hit r = some cache) :
    (r.base s).contents = cache.result ∧ (r.base s).state = s.countHit ∧
      (r.base s).call = none := by
  unfold hit at found
  unfold Request.base base
  rw [prunes, if_neg (by decide)]
  dsimp only
  rw [found]
  exact ⟨rfl, rfl, rfl⟩

theorem base_of_miss (prunes : r.settings.pruningEnabled = true) (missed : s.hit r = none) :
    (r.base s).contents = r.pruned ∧
      (r.base s).state = { s.countRecompute with
        cache := some ⟨r.settings.entryPoint, selectionKey r.files, r.raw, r.pruned⟩ } ∧
      (r.base s).call =
        (Prune.pruneSelection r.files r.raw r.settings.entryPoint r.oracle).value.call := by
  unfold hit at missed
  unfold Request.base base Request.pruned
  rw [prunes, if_neg (by decide), if_pos rfl]
  dsimp only
  rw [missed]
  exact ⟨rfl, rfl, rfl⟩

theorem lookups_base :
    (r.base s).state.lookups = s.lookups + if r.settings.pruningEnabled then 1 else 0 := by
  cases prunes : r.settings.pruningEnabled with
  | false =>
    rw [base_of_plain prunes]
    rfl
  | true =>
    rw [if_pos rfl]
    cases found : s.hit r with
    | none =>
      obtain ⟨-, state, -⟩ := base_of_miss prunes found
      rw [state]
      exact Nat.add_right_comm _ 1 _
    | some cache =>
      rw [(base_of_hit prunes found).2.1]
      exact (Nat.add_assoc _ _ 1).symm

theorem call_run : (r.run s).call = (r.base s).call := by
  unfold Request.run recompute
  dsimp only
  split <;> rfl

theorem exists_eligible_files :
    (∃ file ∈ r.files, file.isEligible = true) ↔ ∃ file ∈ r.selected, file.isEligible = true := by
  constructor
  · rintro ⟨file, member, eligible⟩
    exact ⟨file, (List.mem_filter.mp member).1, eligible⟩
  · rintro ⟨file, member, eligible⟩
    have plain : (!file.isDir) = true := (Bool.and_eq_true_iff.mp eligible).1
    exact ⟨file, List.mem_filter.mpr ⟨member, plain⟩, eligible⟩

theorem isSome_call_run :
    (r.run s).call.isSome = true ↔
      r.settings.pruningEnabled = true ∧ r.oracle.isSome = true ∧
        (∃ file ∈ r.selected, file.isEligible = true) ∧ s.hit r = none := by
  rw [call_run]
  cases prunes : r.settings.pruningEnabled with
  | false =>
    rw [base_of_plain prunes]
    simp
  | true =>
    cases found : s.hit r with
    | none =>
      rw [(base_of_miss prunes found).2.2, Prune.isSome_call_pruneSelection, exists_eligible_files]
      simp [truthy_of_pruningEnabled prunes]
    | some cache =>
      rw [(base_of_hit prunes found).2.2]
      simp

/-! What the cache holds. -/

structure Holds (events : List EstimationEvent) (cache : ReachabilityCache) (q : Request) :
    Prop where
  asked : q ∈ requests events
  entryPoint : ∀ c ∈ requests events,
    cache.entryPoint.same c.settings.entryPoint =
      q.settings.entryPoint.same c.settings.entryPoint
  selection : cache.selection = selectionKey q.files
  raw : cache.rawContents = q.raw

variable {events : List EstimationEvent} {last : Option Request}

theorem Holds.answers_iff {cache : ReachabilityCache} {q : Request} (holds : Holds events cache q)
    (asked : r ∈ requests events) :
    cache.answers r.settings.entryPoint (selectionKey r.files) r.raw = true ↔ r.Repeats q := by
  unfold ReachabilityCache.answers
  simp only [Bool.and_eq_true, beq_iff_eq]
  rw [holds.entryPoint r asked, holds.selection, holds.raw]
  constructor
  · rintro ⟨⟨entryPoint, selection⟩, raw⟩
    exact ⟨entryPoint, selection, (Request.raw_eq_iff selection).mp raw⟩
  · intro repeats
    exact ⟨⟨repeats.entryPoint, repeats.selection⟩,
      (Request.raw_eq_iff repeats.selection).mpr repeats.raw⟩

theorem hit_eq_none_iff (held : Option.Rel (Holds events) s.cache last)
    (asked : r ∈ requests events) :
    s.hit r = none ↔ ∀ q ∈ last, ¬ r.Repeats q := by
  unfold hit
  cases cached : s.cache with
  | none =>
    rw [cached] at held
    cases held
    simp
  | some cache =>
    rw [cached] at held
    cases held with
    | some holds =>
      rw [Option.filter_eq_none_iff]
      simp only [Option.some.injEq, Option.mem_some_iff, forall_eq', holds.answers_iff asked]

/-- A hit leaves the older of two equal entry points in the cache; it is as good as the newer. -/
theorem held_base (agree : EntryPointsAgree events)
    (held : Option.Rel (Holds events) s.cache last) (asked : r ∈ requests events) :
    Option.Rel (Holds events) (r.base s).state.cache
      ((some r).filter (·.settings.pruningEnabled)) := by
  cases prunes : r.settings.pruningEnabled with
  | false =>
    rw [base_of_plain prunes, Option.filter_some_neg (by simp [prunes])]
    exact .none
  | true =>
    rw [Option.filter_some_pos (p := fun q : Request => q.settings.pruningEnabled) prunes]
    cases found : s.hit r with
    | none =>
      obtain ⟨-, state, -⟩ := base_of_miss prunes found
      rw [state]
      exact .some ⟨asked, fun _ _ => rfl, rfl, rfl⟩
    | some cache =>
      rw [(base_of_hit prunes found).2.1]
      obtain ⟨cached, answers⟩ := Option.filter_eq_some_iff.mp found
      change Option.Rel (Holds events) s.cache (some r)
      rw [cached] at held ⊢
      cases held with
      | some holds =>
        have repeats := (holds.answers_iff asked).mp answers
        simp only [ReachabilityCache.answers, Bool.and_eq_true, beq_iff_eq] at answers
        refine .some ⟨asked, ?_, answers.1.2, answers.2⟩
        intro c listed
        rw [holds.entryPoint c listed]
        exact agree _ holds.asked r asked c listed repeats.entryPoint

/-! Nothing but a request looks the cache up. -/

theorem lookups_dispatch (s : Estimator) : s.dispatch.state.lookups = s.lookups := by
  unfold dispatch
  split
  · rfl
  · dsimp only
    split <;> rfl

theorem lookups_flush (s : Estimator) : s.flush.state.lookups = s.lookups :=
  lookups_dispatch s.cancelTimer

theorem lookups_schedule (s : Estimator) : s.schedule.state.lookups = s.lookups := by
  unfold schedule
  dsimp only
  split
  · exact lookups_flush s
  · rfl

theorem lookups_fire (s : Estimator) (generation : Nat) :
    (s.fire generation).state.lookups = s.lookups := by
  unfold fire
  split
  · exact lookups_dispatch _
  · rfl

theorem lookups_applyResult (s : Estimator) (result : TokenBatchResult) :
    (s.applyResult result).state.lookups = s.lookups := by
  unfold applyResult
  dsimp only
  split <;> rfl

theorem lookups_queued : (r.queued s).lookups = (r.base s).state.lookups := by
  change ((r.base s).state.adopt r.settings r.strategy).lookups = _
  unfold adopt
  split <;> rfl

end Estimator

namespace Session

open Estimator (Holds)

variable {encodings : Encodings} {w : Session} {events : List EstimationEvent}

theorem lookups_step_of_quiet {event : EstimationEvent} (quiet : ∀ r, event ≠ .recompute r) :
    (w.step encodings event).estimator.lookups = w.estimator.lookups := by
  cases event with
  | recompute r => exact absurd rfl (quiet r)
  | flush => exact Estimator.lookups_flush w.estimator
  | fire generation => exact Estimator.lookups_fire w.estimator generation
  | deliver requestId failure =>
    unfold step
    dsimp only
    split
    · unfold delivered
      dsimp only
      unfold Estimator.deliver
      split <;> exact Estimator.lookups_applyResult _ _
    · rfl
  | close => rfl

theorem lookups_step (w : Session) (r : Request) :
    (w.step encodings (.recompute r)).estimator.lookups =
      w.estimator.lookups + if r.settings.pruningEnabled then 1 else 0 := by
  have queued : (w.after (r.run w.estimator)).estimator.lookups =
      (r.queued w.estimator).lookups := by
    rw [after_run]
    split
    · rfl
    · exact Estimator.lookups_schedule _
  exact (queued.trans Estimator.lookups_queued).trans Estimator.lookups_base

theorem lookups_run (encodings : Encodings) (interval : Number) (worker : Worker)
    (events : List EstimationEvent) :
    ((start interval worker).run encodings events).estimator.lookups =
      (requests events).countP (·.settings.pruningEnabled) := by
  induction events using List.reverseRecOn with
  | nil => rfl
  | append_singleton events event ih =>
    rw [run_concat]
    by_cases quiet : ∀ r, event ≠ .recompute r
    · rw [lookups_step_of_quiet quiet, requests_concat_of_quiet events quiet, ih]
    · push Not at quiet
      obtain ⟨r, rfl⟩ := quiet
      rw [lookups_step, requests_concat, ih, List.countP_append, List.countP_singleton]

theorem held_run (encodings : Encodings) (interval : Number) (worker : Worker)
    (agree : EntryPointsAgree events) {before : List EstimationEvent}
    (asked : ∀ r ∈ requests before, r ∈ requests events) :
    Option.Rel (Holds events) ((start interval worker).run encodings before).estimator.cache
      (lastPruning before) := by
  induction before using List.reverseRecOn with
  | nil => exact .none
  | append_singleton before event ih =>
    rw [run_concat]
    by_cases quiet : ∀ r, event ≠ .recompute r
    · rw [(sameQuestion_step quiet).cache, lastPruning, requests_concat_of_quiet before quiet]
      rw [requests_concat_of_quiet before quiet] at asked
      exact ih asked
    · push Not at quiet
      obtain ⟨r, rfl⟩ := quiet
      rw [requests_concat] at asked
      have held := ih fun q listed => asked q (List.mem_append_left _ listed)
      have listed : r ∈ requests events := asked r (List.mem_append_right _ List.mem_cons_self)
      rw [lastPruning_concat]
      change Option.Rel _ (Session.after _ (r.run _)).estimator.cache _
      rw [(sameQuestion_queued _ r).cache, Request.queued]
      change Option.Rel _ ((Request.base r _).state.adopt r.settings r.strategy).cache _
      rw [cache_adopt]
      exact Estimator.held_base agree held listed

/-- In every run with one oracle the base texts of a request are those found without a cache, the
oracle is asked exactly if the request prunes, there is an oracle and an eligible file, and the last
request did not prune or put another question; and each request that prunes counts as a
recomputation or as a hit. -/
theorem oracle_asked_iff (encodings : Encodings) (interval : Number) (worker : Worker)
    (events : List EstimationEvent) (oracle : Option Oracle)
    (one : ∀ r ∈ requests events, r.oracle = oracle)
    (consistent : ∀ o ∈ oracle, o.Consistent) (agree : EntryPointsAgree events) :
    (∀ before r after, events = before ++ .recompute r :: after →
      let s := ((start interval worker).run encodings before).estimator
      (r.base s).contents = r.pruned ∧
      ((r.run s).call.isSome = true ↔
        r.settings.pruningEnabled = true ∧ oracle.isSome = true ∧
          (∃ file ∈ r.selected, file.isEligible = true) ∧
          ∀ last ∈ lastPruning before, ¬ r.Repeats last)) ∧
    let stats := ((start interval worker).run encodings events).estimator.stats
    stats.reachabilityRecomputes + stats.reachabilityCacheHits =
      (requests events).countP (·.settings.pruningEnabled) := by
  refine ⟨?_, lookups_run encodings interval worker events⟩
  rintro before r after rfl
  have listed : r ∈ requests (before ++ .recompute r :: after) := mem_requests.mpr (by simp)
  have earlier : ∀ q ∈ requests before, q ∈ requests (before ++ .recompute r :: after) := by
    intro q member
    exact mem_requests.mpr (List.mem_append_left _ (mem_requests.mp member))
  obtain rfl := one r listed
  have sound : Estimator.CacheSound r.oracle
      ((start interval worker).run encodings before).estimator :=
    cacheSound_run (fun q member => one q (earlier q (mem_requests.mpr member)))
      fun _ present => nomatch present
  refine ⟨Estimator.base_contents r sound consistent, ?_⟩
  rw [Estimator.isSome_call_run,
    Estimator.hit_eq_none_iff (held_run encodings interval worker agree earlier) listed]

/-- Pruning is off, but the entry point stays set. -/
def switchedOff : Request :=
  { pruning with settings := { pruning.settings with deadCodeElimination := .bool false } }

def toggled : List EstimationEvent :=
  [.recompute pruning, .recompute pruning, .recompute switchedOff, .recompute pruning]

theorem oracle_asked_iff_toggled :
    let s := fun before => ((start (.int 0) .shared).run (fun _ => .ok .characters) before).estimator
    (∀ r ∈ requests toggled, r.oracle = some reportsOld) ∧ reportsOld.Consistent ∧
      EntryPointsAgree toggled ∧
      (pruning.run (s [])).call.isSome = true ∧
      (pruning.run (s (toggled.take 1))).call.isSome = false ∧
      (pruning.base (s (toggled.take 1))).contents = pruning.pruned ∧
      (switchedOff.run (s (toggled.take 2))).call.isSome = false ∧
      (pruning.run (s (toggled.take 3))).call.isSome = true ∧
      (s toggled).stats.reachabilityRecomputes + (s toggled).stats.reachabilityCacheHits = 3 := by
  intro s
  have one : ∀ r ∈ requests toggled, r.oracle = some reportsOld := by
    simp [requests, toggled, EstimationEvent.request?, pruning, switchedOff]
  have consistent : reportsOld.Consistent := fun _ _ _ _ => rfl
  have agree : EntryPointsAgree toggled := by
    apply entryPointsAgree_of_scalars
    simp [requests, toggled, EstimationEvent.request?, pruning, switchedOff, Value.isKey]
  obtain ⟨each, lookups⟩ := oracle_asked_iff (fun _ => .ok .characters) (.int 0) .shared toggled
    (some reportsOld) one (by simpa using consistent) agree
  have enabled : pruning.settings.pruningEnabled = true := by decide +kernel
  have eligible : ∃ file ∈ pruning.selected, file.isEligible = true := by decide +kernel
  have disabled : switchedOff.settings.pruningEnabled = false := by decide +kernel
  refine ⟨one, consistent, agree, ?_, ?_, (each [.recompute pruning] _ _ rfl).1, ?_, ?_, ?_⟩
  · exact (each [] _ _ rfl).2.mpr ⟨enabled, rfl, eligible, fun _ last => absurd last (Option.not_mem_none _)⟩
  · refine Bool.eq_false_iff.mpr fun asked => ?_
    have repeats : pruning.Repeats pruning := ⟨by decide +kernel, rfl, fun _ => rfl⟩
    refine ((each [.recompute pruning] _ _ rfl).2.mp asked).2.2.2 pruning ?_ repeats
    exact Option.filter_some_pos (p := fun q : Request => q.settings.pruningEnabled) enabled
  · refine Bool.eq_false_iff.mpr fun asked => ?_
    have on := ((each (toggled.take 2) _ _ rfl).2.mp asked).1
    exact absurd (disabled.symm.trans on) Bool.false_ne_true
  · refine (each (toggled.take 3) _ _ rfl).2.mpr ⟨enabled, rfl, eligible, fun last found => ?_⟩
    have none : lastPruning (toggled.take 3) = none :=
      (lastPruning_concat [.recompute pruning, .recompute pruning] switchedOff).trans
        (Option.filter_some_neg (by simp [disabled]))
    rw [none] at found
    cases found
  · refine lookups.trans ?_
    decide +kernel

theorem base_switchedOff :
    let s := ((start (.int 0) .shared).run (fun _ => .ok .characters) []).estimator
    reportsOld.Consistent ∧ switchedOff.oracle = some reportsOld ∧
      (switchedOff.base s).contents ≠ (Prune.pruneSelection switchedOff.files switchedOff.raw
        switchedOff.settings.entryPoint switchedOff.oracle).value.contents := by
  exact ⟨fun _ _ _ _ => rfl, rfl, by decide +kernel⟩

end Session

end PromptPack
