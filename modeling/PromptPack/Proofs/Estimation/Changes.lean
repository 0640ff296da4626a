import PromptPack.Proofs.Estimation.Questions
import PromptPack.Proofs.Estimation.Refusal

/-! What counts as changed. The fingerprints sum up the requests since the settings or the strategy
last changed: for each path they hold the text that was found for it last. So a request queues
exactly the files for which it finds another text. Main statement: `recompute_queues_changes`. -/

namespace PromptPack

structure Recount where
  request : Request
  texts : Table String String

namespace Recount

def lastText (recounts : List Recount) (path : String) : Option String :=
  (recounts.filterMap fun recount => recount.texts.get? path).getLast?

/-- What still stands when a request comes: nothing, if it changes the settings or the strategy. -/
def standing (recounts : List Recount) (r : Request) : List Recount :=
  if recounts.head?.any fun first =>
      first.request.settings.same r.settings && first.request.strategy == r.strategy
    then recounts else []

def sinceChange (recounts : List Recount) : List Recount :=
  recounts.foldl (fun since next => standing since next.request ++ [next]) []

theorem lastText_concat (recounts : List Recount) (last : Recount) (path : String) :
    lastText (recounts ++ [last]) path = (last.texts.get? path).or (lastText recounts path) := by
  unfold lastText
  rw [List.filterMap_append, List.getLast?_append]
  cases found : last.texts.get? path with
  | none => simp [found]
  | some text => simp [found]

theorem sinceChange_concat (recounts : List Recount) (last : Recount) :
    sinceChange (recounts ++ [last]) = standing (sinceChange recounts) last.request ++ [last] := by
  unfold sinceChange
  rw [List.foldl_append]
  rfl

end Recount

open Recount (lastText standing sinceChange)

namespace Estimator

structure Remembers (s : Estimator) (since : List Recount) : Prop where
  basis : s.basis =
    since.head?.map fun first => (first.request.settings, first.request.strategy)
  fingerprints : ∀ path, s.fingerprints.get? path = lastText since path

namespace Remembers

variable {s : Estimator} {since : List Recount}

theorem of_sameQuestion (h : s.Remembers since) {t : Estimator} (same : SameQuestion s t) :
    t.Remembers since :=
  ⟨same.basis.trans h.basis, fun path => same.fingerprints ▸ h.fingerprints path⟩

theorem standing_eq (h : s.Remembers since) (r : Request) :
    standing since r = if s.isBasis r.settings r.strategy then since else [] := by
  unfold isBasis standing
  rw [h.basis, Option.any_map]

theorem isEmpty_standing (h : s.Remembers since) (r : Request) :
    (!(standing since r).isEmpty) = s.isBasis r.settings r.strategy := by
  rw [h.standing_eq r]
  cases known : s.isBasis r.settings r.strategy with
  | false => rfl
  | true =>
    unfold isBasis at known
    rw [h.basis] at known
    cases since with
    | nil => cases known
    | cons first rest => rfl

theorem fingerprints_adopted (h : s.Remembers since) (r : Request) (path : String) :
    (r.adopted s).fingerprints.get? path = lastText (standing since r) path := by
  rw [r.fingerprints_adopted s, h.standing_eq r]
  split
  · exact h.fingerprints path
  · rfl

/-- The files that a request queues are those whose text is not the one found last. -/
theorem changed_eq (h : s.Remembers since) (r : Request) :
    r.changed s = (r.counted s).filter fun entry =>
      lastText (standing since r) entry.1 != some entry.2 := by
  unfold Request.changed changed
  apply List.filter_congr
  rintro ⟨path, text⟩ _
  dsimp only
  rw [h.fingerprints_adopted r]

theorem queued (h : s.Remembers since) (r : Request) :
    (r.queued s).Remembers (standing since r ++ [⟨r, r.counted s⟩]) where
  basis := by
    change (r.adopted s).basis = _
    cases known : s.isBasis r.settings r.strategy with
    | true =>
      obtain ⟨cache, stats, state⟩ := r.exists_base s
      rw [Request.adopted_of_basis known, state, h.standing_eq r, known, if_pos rfl]
      change s.basis = _
      rw [h.basis]
      cases front : since.head? with
      | none =>
        have unknown := h.basis
        rw [front] at unknown
        simp [isBasis, unknown] at known
      | some first => simp [List.head?_append, front]
    | false =>
      rw [Request.adopted_of_change known, h.standing_eq r, known]
      rfl
  fingerprints path := by
    have keys : (r.counted s).keys.Nodup := Table.nodup_keys_ofList _
    rw [Recount.lastText_concat, Request.queued, Request.changed, fingerprints_enqueue keys,
      h.fingerprints_adopted r]

end Remembers

end Estimator

namespace Session

variable {encodings : Encodings} {w : Session}

def recounts (encodings : Encodings) (w : Session) : List (Worker × EstimationEvent) → List Recount
  | [] => []
  | move :: moves =>
    (move.2.request?.map fun r => ⟨r, r.counted (w.withWorker move.1).estimator⟩).toList ++
      recounts encodings (w.stepOn encodings move) moves

theorem recounts_concat (moves : List (Worker × EstimationEvent))
    (move : Worker × EstimationEvent) :
    recounts encodings w (moves ++ [move]) = recounts encodings w moves ++
      (move.2.request?.map fun r =>
        ⟨r, r.counted ((w.runOn encodings moves).withWorker move.1).estimator⟩).toList := by
  induction moves generalizing w with
  | nil => exact List.append_nil _
  | cons first moves ih =>
    rw [List.cons_append, recounts, ih, recounts, List.append_assoc]
    rfl

theorem runOn_concat (moves : List (Worker × EstimationEvent)) (move : Worker × EstimationEvent) :
    w.runOn encodings (moves ++ [move]) = (w.runOn encodings moves).stepOn encodings move :=
  runOn_append encodings w moves [move]

theorem remembers_runOn (encodings : Encodings) (interval : Number) (worker : Worker)
    (moves : List (Worker × EstimationEvent)) :
    ((start interval worker).runOn encodings moves).estimator.Remembers
      (sinceChange (recounts encodings (start interval worker) moves)) := by
  induction moves using List.reverseRecOn with
  | nil => exact ⟨rfl, fun _ => rfl⟩
  | append_singleton moves move ih =>
    have met := ih.of_sameQuestion (sameQuestion_withWorker _ move.1)
    rw [runOn_concat, recounts_concat]
    unfold stepOn
    generalize ((start interval worker).runOn encodings moves).withWorker move.1 = w at met ⊢
    obtain ⟨now, event⟩ := move
    by_cases quiet : ∀ r, event ≠ .recompute r
    · have none : event.request? = Option.none := by
        cases event with
        | recompute r => exact absurd rfl (quiet r)
        | _ => rfl
      rw [none, Option.map_none, Option.toList_none, List.append_nil]
      exact met.of_sameQuestion (sameQuestion_step quiet)
    · push Not at quiet
      obtain ⟨r, rfl⟩ := quiet
      change Estimator.Remembers _ (sinceChange (_ ++ [⟨r, r.counted w.estimator⟩]))
      rw [Recount.sinceChange_concat]
      exact (met.queued r).of_sameQuestion (sameQuestion_queued w r)

end Session

namespace Request

variable {q r : Request} {s : Estimator} {file : SourceFile} {path text : String}

structure Requeues (r : Request) (s : Estimator) (kept : Bool) (differing : Table String String) :
    Prop where
  paths : differing.keys.Nodup
  /-- It answers how many there are, unless they are sent at once and the worker refuses them. -/
  answer : (r.run s).answer =
    if differing ≠ [] ∧ s.interval.le (.int 0) = true ∧ s.worker.accepts = false
      then .error .shutDown else .ok differing.length
  /-- They join what waits for the timer. -/
  waiting : differing = [] ∨ s.interval.le (.int 0) = false →
    (r.run s).state.pending = Table.setEach (if kept then s.pending else []) differing
  /-- With no timer they are sent, and all that waits. -/
  sent : differing ≠ [] → s.interval.le (.int 0) = true → (r.run s).state.pending = [] ∧
    (s.worker.accepts = true → ∃ batch, (r.run s).submitted = some batch ∧ ∀ path text,
      Table.get? (Table.setEach (if kept then s.pending else []) differing) path = some text →
        Table.get? batch.files path = some text)
  /-- Nothing found under the settings in force leaves everything as it is. -/
  nothing : differing = [] → kept = true →
    (r.run s).state.fingerprints = s.fingerprints ∧ (r.run s).state.pending = s.pending ∧
      (r.run s).state.outstanding = s.outstanding ∧ (r.run s).state.tokenMap = s.tokenMap ∧
      (r.run s).state.timer = s.timer ∧ (r.run s).state.generation = s.generation ∧
      (r.run s).submitted = none

theorem requeues_changed (r : Request) (s : Estimator) :
    r.Requeues s (s.isBasis r.settings r.strategy) (r.changed s) where
  paths := Estimator.nodup_changed (Table.nodup_keys_ofList _)
  answer := by
    by_cases found : r.changed s = []
    · rw [if_neg fun refused => refused.1 found, (run_of_unchanged found).1, found]
      rfl
    · cases immediate : s.interval.le (.int 0) with
      | false =>
        rw [if_neg fun refused => Bool.false_ne_true refused.2.1, (run_of_timed found immediate).1]
      | true =>
        rw [(run_of_immediate found immediate).2.1]
        cases s.worker.accepts <;> simp [found]
  waiting := by
    rw [← r.pending_adopted s, ← r.pending_queued s]
    rintro later
    rw [r.pending_run, if_neg]
    rintro ⟨found, immediate⟩
    rw [immediate] at later
    exact later.elim found (fun timed => nomatch timed)
  sent := by
    rw [← r.pending_adopted s, ← r.pending_queued s]
    intro found immediate
    have submitted := (run_of_immediate found immediate).2.2
    refine ⟨by rw [r.pending_run, if_pos ⟨found, immediate⟩], fun accepts => ?_⟩
    refine ⟨(r.queued s).cancelTimer.nextBatch, by rw [submitted, if_pos accepts], ?_⟩
    intro path text waits
    exact Estimator.get?_nextFiles_of_pending (s := (r.queued s).cancelTimer) waits
  nothing := by
    intro found known
    obtain ⟨-, state, submitted⟩ := run_of_unchanged found
    obtain ⟨cache, stats, based⟩ := r.exists_base s
    rw [state, submitted, adopted_of_basis known, based]
    exact ⟨rfl, rfl, rfl, rfl, rfl, rfl, rfl⟩

/-- The request asks under the same settings, and what it selects of the other's files is as it was
there. -/
structure Leaves (r q : Request) : Prop where
  settings : r.settings = q.settings
  strategy : r.strategy = q.strategy
  distinct : (r.selected.map (·.path)).Nodup
  files : ∀ file ∈ r.files, ∀ other ∈ q.files, file.path = other.path →
    file.normalizedExtension = other.normalizedExtension ∧
      ∀ text, r.textOf file = some text → q.textOf other = some text

theorem get?_counted_of_plain (plain : r.settings.pruningEnabled = false)
    (distinct : (r.selected.map (·.path)).Nodup) (member : file ∈ r.files) :
    (r.counted s).get? file.path = (r.textOf file).map fun text =>
      Transform.apply text file.normalizedExtension r.settings := by
  rw [get?_counted distinct member, Estimator.base_of_plain plain, get?_raw distinct member]

theorem exists_of_counted (counted : (r.counted s).get? path = some text) :
    ∃ file ∈ r.files, file.path = path ∧ ∃ base, (r.base s).contents.get? path = some base ∧
      text = Transform.apply base file.normalizedExtension r.settings := by
  obtain ⟨file, member, made⟩ := List.mem_filterMap.mp (Table.mem_of_get?_ofList counted)
  obtain ⟨base, found, same⟩ := Option.map_eq_some_iff.mp made
  obtain ⟨rfl, rfl⟩ := Prod.mk.inj same
  exact ⟨file, member, rfl, base, found, rfl⟩

structure Known (q : Request) (texts : Table String String) (s : Estimator) : Prop where
  basis : s.isBasis q.settings q.strategy = true
  fingerprints : Estimator.Current s.fingerprints texts

namespace Known

variable {texts : Table String String}

theorem of_sameQuestion (h : Known q texts s) {t : Estimator}
    (same : Estimator.SameQuestion s t) : Known q texts t where
  basis := by
    rw [Estimator.isBasis, same.basis]
    exact h.basis
  fingerprints := by
    rw [same.fingerprints]
    exact h.fingerprints

theorem asked (q : Request) (s : Estimator) (equal : q.settings.same q.settings = true) :
    Known q (q.counted s) (q.queued s) where
  basis := by
    have adopted := Estimator.isBasis_adopt (s := (q.base s).state) q.strategy equal
    exact adopted
  fingerprints := by
    intro path text counted
    rw [q.fingerprints_queued, counted, Option.some_or]

theorem queued {v : Estimator} (h : Known q (q.counted v) s)
    (plain : q.settings.pruningEnabled = false) (distinct : (q.selected.map (·.path)).Nodup)
    (leaves : r.Leaves q) : Known q (q.counted v) (r.queued s) := by
  have known : s.isBasis r.settings r.strategy = true := by
    rw [leaves.settings, leaves.strategy]
    exact h.basis
  constructor
  · change (r.adopted s).isBasis q.settings q.strategy = true
    rw [adopted_of_basis known, r.isBasis_base]
    exact h.basis
  · intro path text counted
    rw [r.fingerprints_queued, if_pos known]
    cases again : (r.counted s).get? path with
    | none => exact h.fingerprints path text counted
    | some found =>
      obtain ⟨other, asked, rfl, _⟩ := exists_of_counted counted
      obtain ⟨file, member, same, _⟩ := exists_of_counted again
      obtain ⟨extension, texts⟩ := leaves.files file member other asked same
      rw [← same, get?_counted_of_plain (leaves.settings ▸ plain) leaves.distinct member] at again
      rw [get?_counted_of_plain plain distinct asked] at counted
      obtain ⟨raw, given, rfl⟩ := Option.map_eq_some_iff.mp again
      rw [texts raw given, Option.map_some, ← extension, ← leaves.settings] at counted
      rw [counted, Option.some_or]

theorem changed_eq_nil {v : Estimator} (h : Known q (q.counted v) s)
    (plain : q.settings.pruningEnabled = false) (oracle : Option Oracle) :
    ({ q with oracle } : Request).changed s = [] := by
  let again : Request := { q with oracle }
  have counted : again.counted s = q.counted v := by
    unfold Request.counted
    rw [Estimator.base_of_plain (r := again) plain, Estimator.base_of_plain plain]
    rfl
  exact again.changed_eq_nil_of_current h.basis (counted ▸ h.fingerprints)

end Known

end Request

namespace Session

variable {encodings : Encodings} {w : Session} {q : Request}

theorem known_runOn {v : Estimator} {moves : List (Worker × EstimationEvent)}
    (known : q.Known (q.counted v) w.estimator) (plain : q.settings.pruningEnabled = false)
    (distinct : (q.selected.map (·.path)).Nodup)
    (leaves : ∀ move ∈ moves, ∀ r, move.2 = .recompute r → r.Leaves q) :
    q.Known (q.counted v) (w.runOn encodings moves).estimator := by
  induction moves generalizing w with
  | nil => exact known
  | cons move moves ih =>
    obtain ⟨first, leaves⟩ := List.forall_mem_cons.mp leaves
    apply ih _ leaves
    have met := known.of_sameQuestion (sameQuestion_withWorker w move.1)
    by_cases quiet : ∀ r, move.2 ≠ .recompute r
    · exact met.of_sameQuestion (sameQuestion_step quiet)
    · push Not at quiet
      obtain ⟨r, asked⟩ := quiet
      unfold stepOn
      rw [asked]
      exact (met.queued plain distinct (first r asked)).of_sameQuestion (sameQuestion_queued _ r)

/-- A request that is put again finds nothing changed, if none came between; without pruning, also
if those that came left its files as they were. -/
theorem changed_of_repeated (v : Session) (now : Worker) {after : List (Worker × EstimationEvent)}
    (equal : q.settings.same q.settings = true) (oracle : Option Oracle)
    (between : (∀ move ∈ after, ∀ other, move.2 ≠ .recompute other) ∨
      q.settings.pruningEnabled = false ∧ (q.selected.map (·.path)).Nodup ∧
        ∀ move ∈ after, ∀ other, move.2 = .recompute other → other.Leaves q) :
    ({ q with oracle } : Request).changed
      (((v.after (q.run v.estimator)).runOn encodings after).withWorker now).estimator = [] := by
  have asked := sameQuestion_queued v q
  rcases between with quiet | ⟨plain, distinct, leaves⟩
  · have stands : Estimator.SameQuestion (q.queued v.estimator)
        ((v.after (q.run v.estimator)).runOn encodings after).estimator :=
      asked.trans (sameQuestion_runOn quiet)
    exact (Request.changed_again equal (stands.trans (sameQuestion_withWorker _ now)) oracle).1
  · have known : q.Known (q.counted v.estimator) (v.after (q.run v.estimator)).estimator :=
      (Request.Known.asked q v.estimator equal).of_sameQuestion asked
    have later : q.Known (q.counted v.estimator)
        ((v.after (q.run v.estimator)).runOn encodings after).estimator :=
      known_runOn known plain distinct leaves
    exact (later.of_sameQuestion (sameQuestion_withWorker _ now)).changed_eq_nil plain oracle

/-- In every run a request queues the files for which it finds another text than was found last
since the settings or the strategy changed, and answers how many there are. Asking the same again
finds none; without pruning, neither does selecting again what was left as it was. Settings are
always the same as themselves, unless they hold a not-a-number. -/
theorem recompute_queues_changes (encodings : Encodings) (interval : Number) (worker now : Worker)
    (moves : List (Worker × EstimationEvent)) (r : Request) :
    let w := ((start interval worker).runOn encodings moves).withWorker now
    let since := standing (sinceChange (recounts encodings (start interval worker) moves)) r
    r.Requeues w.estimator (!since.isEmpty)
        ((r.counted w.estimator).filter fun entry => lastText since entry.1 != some entry.2) ∧
      ∀ before met q after, moves = before ++ (met, .recompute q) :: after →
        q.settings.same q.settings = true → r = { q with oracle := r.oracle } →
        ((∀ move ∈ after, ∀ other, move.2 ≠ .recompute other) ∨
          q.settings.pruningEnabled = false ∧ (q.selected.map (·.path)).Nodup ∧
            ∀ move ∈ after, ∀ other, move.2 = .recompute other → other.Leaves q) →
        (r.run w.estimator).answer = .ok 0 := by
  intro w since
  have remembers : w.estimator.Remembers
      (sinceChange (recounts encodings (start interval worker) moves)) :=
    (remembers_runOn encodings interval worker moves).of_sameQuestion
      (sameQuestion_withWorker _ now)
  constructor
  · have kept : (!since.isEmpty) = w.estimator.isBasis r.settings r.strategy :=
      remembers.isEmpty_standing r
    rw [kept, ← remembers.changed_eq r]
    exact r.requeues_changed w.estimator
  · intro before met q after split equal same between
    let v := ((start interval worker).runOn encodings before).withWorker met
    have reached : w = ((v.after (q.run v.estimator)).runOn encodings after).withWorker now := by
      change ((start interval worker).runOn encodings moves).withWorker now = _
      rw [split, runOn_append]
      rfl
    have unchanged : r.changed w.estimator = [] := by
      rw [same, reached]
      exact changed_of_repeated v now equal r.oracle between
    exact (Request.run_of_unchanged unchanged).1

def twoFiles : Request := .ofTexts [("a.py", "x"), ("b.py", "y")]

def otherFiles : Request := .ofTexts [("b.py", "y"), ("c.py", "z")]

def editedFiles : Request := .ofTexts [("a.py", "xy"), ("c.py", "z"), ("d.py", "")]

theorem recompute_queues_changes_reselected :
    let encodings : Encodings := fun _ => .ok .characters
    let moves : List (Worker × EstimationEvent) :=
      [(.shared, .recompute twoFiles), (.shared, .flush), (.shared, .recompute otherFiles)]
    let s := (((start (.int 1) .shared).runOn encodings moves).withWorker .shared).estimator
    twoFiles.settings.same twoFiles.settings = true ∧ otherFiles.Leaves twoFiles ∧
      (twoFiles.run s).answer = .ok 0 ∧ (editedFiles.run s).answer = .ok 2 ∧
      (editedFiles.run s).state.pending = [("c.py", "z"), ("a.py", "xy"), ("d.py", "")] := by
  intro encodings moves s
  have equal : twoFiles.settings.same twoFiles.settings = true := by decide +kernel
  have plain : twoFiles.settings.pruningEnabled = false := by decide +kernel
  have distinct : (twoFiles.selected.map (·.path)).Nodup := by decide +kernel
  have leaves : otherFiles.Leaves twoFiles := by
    have files : ∀ file ∈ otherFiles.files, ∀ other ∈ twoFiles.files, file.path = other.path →
        file.normalizedExtension = other.normalizedExtension ∧
          otherFiles.textOf file = twoFiles.textOf other := by
      decide +kernel
    refine ⟨rfl, rfl, by decide +kernel, fun file member other asked same => ?_⟩
    obtain ⟨extension, text⟩ := files file member other asked same
    exact ⟨extension, fun _ given => text ▸ given⟩
  have again := (recompute_queues_changes encodings (.int 1) .shared .shared moves twoFiles).2 []
    .shared twoFiles [(.shared, .flush), (.shared, .recompute otherFiles)] rfl equal rfl
    (.inr ⟨plain, distinct, by simpa using leaves⟩)
  have edited := (recompute_queues_changes encodings (.int 1) .shared .shared moves editedFiles).1
  refine ⟨equal, leaves, again, edited.answer.trans ?_, (edited.waiting (.inr ?_)).trans ?_⟩ <;>
    decide +kernel

end Session

end PromptPack
