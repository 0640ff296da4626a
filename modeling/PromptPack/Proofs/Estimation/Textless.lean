import PromptPack.Proofs.Estimation.Changes
import PromptPack.Proofs.Prune.Reports
import PromptPack.Proofs.Transform.Subsequence

/-! Files without a text. A request passes over them, unless unreachable symbols are reported for
them: pruning gives such a file an entry, and then it is counted as an empty text. The report may be
that of an earlier request, if it put the same question. Main statement:
`textless_counted_iff_reported`. -/

namespace PromptPack

namespace Request

/-- The request prunes, and the oracle reports to it symbols of a file at the path. -/
def ReportedAt (q : Request) (path : String) : Prop :=
  q.settings.pruningEnabled = true ∧
    ∃ file symbols, Prune.Reports q.files q.raw q.settings.entryPoint q.oracle file symbols ∧
      file.path = path

/-- Whose answer a request uses: that of an earlier one which put its question, if the cache has it,
and else its own. -/
inductive Asker (s : Estimator) (earlier : List Request) (r : Request) : Request → Prop
  | itself (misses : r.settings.pruningEnabled = true → s.hit r = none) : Asker s earlier r r
  | cached {q : Request} {cache : ReachabilityCache} (prunes : r.settings.pruningEnabled = true)
      (hit : s.hit r = some cache) (listed : q ∈ earlier)
      (pruned : q.settings.pruningEnabled = true) (repeats : r.Repeats q) : Asker s earlier r q

structure Skips (r : Request) (s : Estimator) (path : String) : Prop where
  fingerprint : ∀ text, (r.run s).state.fingerprints.get? path = some text →
    s.fingerprints.get? path = some text
  pending : ∀ text, (r.run s).state.pending.get? path = some text →
    s.pending.get? path = some text

structure CountsEmpty (r : Request) (s : Estimator) (path : String) : Prop where
  fingerprint : (r.run s).state.fingerprints.get? path = some ""
  queued : (r.changed s).get? path = some "" ∨
    s.isBasis r.settings r.strategy = true ∧ s.fingerprints.get? path = some ""
  pending : (r.changed s).get? path = some "" → s.interval.le (.int 0) = false →
    (r.run s).state.pending.get? path = some ""

end Request

namespace Estimator

def Answered (s : Estimator) (earlier : List Request) : Prop :=
  ∀ cache ∈ s.cache, ∃ q ∈ earlier, q.settings.pruningEnabled = true ∧
    cache = ⟨q.settings.entryPoint, selectionKey q.files, q.raw, q.pruned⟩

namespace Answered

variable {s : Estimator} {earlier : List Request}

theorem base (h : s.Answered earlier) (r : Request) :
    (r.base s).state.Answered (earlier ++ [r]) := by
  have older : s.Answered (earlier ++ [r]) := by
    intro cache present
    obtain ⟨q, listed, found⟩ := h cache present
    exact ⟨q, List.mem_append_left _ listed, found⟩
  cases prunes : r.settings.pruningEnabled with
  | false =>
    rw [base_of_plain prunes]
    exact nofun
  | true =>
    cases found : s.hit r with
    | some cache =>
      rw [(base_of_hit prunes found).2.1]
      exact older
    | none =>
      rw [(base_of_miss prunes found).2.1]
      intro cache present
      obtain rfl := Option.some.inj present
      exact ⟨r, List.mem_append_right _ List.mem_cons_self, prunes, rfl⟩

theorem exists_asker (h : s.Answered earlier) (r : Request) :
    ∃ q, r.Asker s earlier q ∧ (r.base s).contents = q.pruned := by
  cases prunes : r.settings.pruningEnabled with
  | false =>
    refine ⟨r, .itself fun other => ?_, ?_⟩
    · rw [prunes] at other
      cases other
    · rw [base_of_plain prunes, Request.pruned, prunes]
      rfl
  | true =>
    cases found : s.hit r with
    | none => exact ⟨r, .itself fun _ => found, (base_of_miss prunes found).1⟩
    | some cache =>
      obtain ⟨cached, answers⟩ := Option.filter_eq_some_iff.mp found
      obtain ⟨q, listed, pruned, rfl⟩ := h cache cached
      simp only [ReachabilityCache.answers, Bool.and_eq_true, beq_iff_eq] at answers
      obtain ⟨⟨entryPoint, selection⟩, raw⟩ := answers
      have repeats : r.Repeats q := ⟨entryPoint, selection, fun path => by rw [raw]⟩
      exact ⟨q, .cached prunes found listed pruned repeats, (base_of_hit prunes found).1⟩

end Answered

end Estimator

namespace Request

variable {r q : Request} {s : Estimator} {earlier : List Request} {path text : String}

theorem Asker.same (h : r.Asker s earlier q) :
    q.files.map (·.path) = r.files.map (·.path) ∧ q.raw = r.raw := by
  cases h with
  | itself => exact ⟨rfl, rfl⟩
  | cached _ _ _ _ repeats =>
    exact ⟨paths_of_selection repeats.selection, (raw_eq_iff repeats.selection).mpr repeats.raw⟩

theorem get?_raw_of_textless (textless : (r.contents.get? path).join = none) :
    r.raw.get? path = none := by
  rw [raw_eq_ofKeys, Table.get?_ofKeys]
  split
  · exact textless
  · rfl

theorem has_pruned_iff (textless : q.raw.get? path = none) :
    q.pruned.has path = true ↔ q.ReportedAt path := by
  have missing : ¬ q.raw.has path = true := by simp [Table.has, textless]
  unfold pruned ReportedAt
  split
  · next prunes => simp [Prune.has_pruneSelection_iff, missing, prunes]
  · next plain => simp [missing, plain]

theorem has_counted_iff : (r.counted s).has path = true ↔
    path ∈ r.files.map (·.path) ∧ (r.base s).contents.has path = true := by
  unfold counted Estimator.transformed
  rw [Table.has_ofList]
  simp only [List.mem_map, List.mem_filterMap, Option.map_eq_some_iff]
  constructor
  · rintro ⟨_, ⟨file, member, text, found, rfl⟩, rfl⟩
    exact ⟨⟨file, member, rfl⟩, by rw [Table.has, found]; rfl⟩
  · rintro ⟨⟨file, member, rfl⟩, found⟩
    obtain ⟨text, found⟩ := Option.isSome_iff_exists.mp found
    exact ⟨_, ⟨file, member, text, found, rfl⟩, rfl⟩

theorem has_counted_iff_reportedAt (asker : r.Asker s earlier q)
    (found : (r.base s).contents = q.pruned) (textless : (r.contents.get? path).join = none) :
    (r.counted s).has path = true ↔ q.ReportedAt path := by
  obtain ⟨paths, raw⟩ := asker.same
  rw [has_counted_iff, found, has_pruned_iff (raw ▸ get?_raw_of_textless textless)]
  refine and_iff_right_of_imp ?_
  rintro ⟨-, file, symbols, report, rfl⟩
  rw [← paths]
  exact List.mem_map_of_mem report.member

theorem shortened_pruned (q : Request) : Shortened q.pruned q.raw := by
  unfold pruned
  split
  · exact Prune.shortened_pruneSelection _ _ _ _
  · exact fun _ => .refl _

theorem counted_of_textless (asker : r.Asker s earlier q)
    (found : (r.base s).contents = q.pruned) (textless : (r.contents.get? path).join = none)
    (counted : (r.counted s).get? path = some text) : text = "" := by
  obtain ⟨file, -, -, base, held, rfl⟩ := exists_of_counted counted
  have shorter := q.shortened_pruned path
  rw [← found, held, asker.same.2, get?_raw_of_textless textless] at shorter
  have empty := (Transform.apply_sublist base file.normalizedExtension r.settings).trans shorter
  exact String.toList_inj.mp (List.eq_nil_of_sublist_nil empty)

theorem skips_of_not_counted (absent : ¬ (r.counted s).has path = true) : r.Skips s path := by
  have absent : (r.counted s).get? path = none := by simpa [Table.has] using absent
  constructor
  · intro text known
    rw [fingerprints_run, fingerprints_queued, absent, Option.none_or] at known
    split at known
    · exact known
    · cases known
  · intro text waits
    rw [pending_run] at waits
    split at waits
    · cases waits
    · rw [get?_pending_queued, get?_changed, absent, Option.filter_none, Option.none_or] at waits
      split at waits
      · exact waits
      · cases waits

theorem countsEmpty_of_counted (counted : (r.counted s).get? path = some "") :
    r.CountsEmpty s path where
  fingerprint := by rw [fingerprints_run, fingerprints_queued, counted, Option.some_or]
  queued := by
    rw [get?_changed, counted]
    by_cases known : s.isBasis r.settings r.strategy = true ∧ s.fingerprints.get? path = some ""
    · exact .inr known
    · refine .inl (Option.filter_some_pos ?_)
      rw [bne_iff_ne]
      split
      · next basis => exact fun same => known ⟨basis, same⟩
      · exact (Option.some_ne_none "").symm
  pending := by
    intro changed timed
    rw [pending_run, if_neg fun both => Bool.false_ne_true (timed.symm.trans both.2),
      get?_pending_queued, changed, Option.some_or]

end Request

namespace Session

variable {encodings : Encodings}

theorem answered_runOn (encodings : Encodings) (interval : Number) (worker : Worker)
    (moves : List (Worker × EstimationEvent)) :
    ((start interval worker).runOn encodings moves).estimator.Answered
      (requests (moves.map (·.2))) := by
  induction moves using List.reverseRecOn with
  | nil => exact nofun
  | append_singleton moves move ih =>
    rw [runOn_concat, List.map_append]
    generalize (start interval worker).runOn encodings moves = w at ih ⊢
    obtain ⟨now, event⟩ := move
    have met : (w.withWorker now).estimator.Answered (requests (moves.map (·.2))) := ih
    by_cases quiet : ∀ r, event ≠ .recompute r
    · unfold Estimator.Answered
      rw [List.map_singleton, requests_concat_of_quiet _ quiet, stepOn,
        (sameQuestion_step quiet).cache]
      exact met
    · push Not at quiet
      obtain ⟨r, rfl⟩ := quiet
      have cache : (r.queued (w.withWorker now).estimator).cache =
          (r.base (w.withWorker now).estimator).state.cache :=
        cache_adopt _ r.settings r.strategy
      unfold Estimator.Answered
      rw [List.map_singleton, requests_concat]
      change ∀ cache ∈ ((w.withWorker now).after (r.run _)).estimator.cache, _
      rw [(sameQuestion_queued _ r).cache, cache]
      exact met.base r

/-- Pruning gives an entry to each file for which symbols are reported. So in every run a request
passes over a path without a text, unless symbols are reported for it: then it counts the empty text
there, though nothing was given. -/
theorem textless_counted_iff_reported (encodings : Encodings) (interval : Number)
    (worker now : Worker) (moves : List (Worker × EstimationEvent)) (r : Request) :
    (∀ selected contents entryPoint oracle path,
      (Prune.pruneSelection selected contents entryPoint oracle).value.contents.has path = true ↔
        contents.has path = true ∨
          ∃ file symbols, Prune.Reports selected contents entryPoint oracle file symbols ∧
            file.path = path) ∧
    let s := (((start interval worker).runOn encodings moves).withWorker now).estimator
    ∃ q, r.Asker s (requests (moves.map (·.2))) q ∧
      ∀ path, (r.contents.get? path).join = none →
        (q.ReportedAt path → r.CountsEmpty s path) ∧ (¬ q.ReportedAt path → r.Skips s path) := by
  refine ⟨fun _ _ _ _ _ => Prune.has_pruneSelection_iff, ?_⟩
  intro s
  have answered : s.Answered (requests (moves.map (·.2))) :=
    answered_runOn encodings interval worker moves
  obtain ⟨q, asker, found⟩ := answered.exists_asker r
  refine ⟨q, asker, fun path textless => ?_⟩
  have counted := r.has_counted_iff_reportedAt asker found textless
  constructor
  · intro reported
    obtain ⟨text, held⟩ := Option.isSome_iff_exists.mp (counted.mpr reported)
    obtain rfl := Request.counted_of_textless asker found textless held
    exact Request.countsEmpty_of_counted held
  · intro silent
    exact Request.skips_of_not_counted (mt counted.mp silent)

def textless : Request :=
  { pruning with
    selected := [.ofPath { path := "a.py" }, .ofPath { path := "c.py" }, .ofPath { path := "d.md" }]
    contents := [("a.py", some "x"), ("d.md", none)] }

/-- The answer is still there when the same is counted by another strategy and nobody is asked. -/
def textlessAgain : Request := { textless with oracle := none, strategy := .openai }

theorem textless_counted_iff_reported_again :
    let encodings : Encodings := fun _ => .ok .characters
    let moves : List (Worker × EstimationEvent) := [(.shared, .recompute textless)]
    let s := (((start (.int 1) .shared).runOn encodings moves).withWorker .shared).estimator
    textlessAgain.CountsEmpty s "c.py" ∧ (textlessAgain.changed s).get? "c.py" = some "" ∧
      textlessAgain.Skips s "d.md" := by
  intro encodings moves s
  obtain ⟨-, q, asker, texts⟩ := textless_counted_iff_reported encodings (.int 1) .shared .shared
    moves textlessAgain
  have asked : q = textless := by
    cases asker with
    | itself misses =>
      have hit : (s.hit textlessAgain).isSome = true := by decide +kernel
      rw [misses (by decide +kernel)] at hit
      cases hit
    | cached _ _ listed => exact List.mem_singleton.mp listed
  subst asked
  have reported : textless.ReportedAt "c.py" :=
    ⟨by decide +kernel, .ofPath { path := "c.py" }, ["old"], ⟨by decide +kernel, by decide +kernel,
      by decide +kernel, ⟨reportsOld, _, rfl, rfl, by decide +kernel⟩, by decide⟩, rfl⟩
  have silent : ¬ textless.ReportedAt "d.md" := by
    rintro ⟨-, file, symbols, report, same⟩
    have others : ∀ file ∈ textless.files, file.isEligible = true → file.path ≠ "d.md" := by
      decide +kernel
    exact others file report.member report.eligible same
  exact ⟨(texts "c.py" rfl).1 reported, by decide +kernel, (texts "d.md" rfl).2 silent⟩

theorem textless_file_waits :
    let s := (start (.int 1) .shared).estimator
    textless.contents.get? "c.py" = none ∧ (textless.run s).state.pending.get? "c.py" = some "" ∧
      (textless.run s).state.fingerprints.get? "c.py" = some "" ∧
      textless.raw.keys = ["a.py"] ∧
      (Prune.pruneSelection textless.files textless.raw textless.settings.entryPoint
        textless.oracle).value.contents.keys = ["a.py", "c.py"] := by
  decide +kernel

end Session

end PromptPack
