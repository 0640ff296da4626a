import PromptPack.Proofs.Estimation.Coverage

/-! A settled estimation. Every fingerprint is accounted for at any time; and when a recomputation
has settled, the count of each selected file with a text is that of the text found from scratch. A
file without one keeps the count it had, and the total includes it. -/

namespace PromptPack

theorem total_filter {α : Type} (f : α → Int) (keep : α → Bool) (xs : List α) :
    total (xs.map f) =
      total ((xs.filter keep).map f) + total ((xs.filter (!keep ·)).map f) := by
  induction xs with
  | nil => rfl
  | cons x xs ih =>
    cases kept : keep x <;> simp [kept, ih] <;> omega

section

variable {α ν : Type} {files : List SourceFile}

def entriesOf (f : SourceFile → Option α) (g : SourceFile → α → ν) (files : List SourceFile) :
    List (String × ν) :=
  files.filterMap fun file => (f file).map fun a => (file.path, g file a)

variable {f : SourceFile → Option α} {g : SourceFile → α → ν}

theorem keys_entriesOf_sublist :
    ((entriesOf f g files).map Prod.fst).Sublist (files.map (·.path)) := by
  induction files with
  | nil => exact .slnil
  | cons file files ih =>
    unfold entriesOf at ih ⊢
    cases found : f file with
    | none =>
      rw [List.filterMap_cons, found]
      exact ih.cons _
    | some a =>
      rw [List.filterMap_cons, found]
      exact ih.cons_cons _

theorem get?_ofList_entriesOf (distinct : (files.map (·.path)).Nodup) {file : SourceFile}
    (member : file ∈ files) :
    (Table.ofList (entriesOf f g files)).get? file.path = (f file).map (g file) := by
  have keys : ((entriesOf f g files).map Prod.fst).Nodup := distinct.sublist keys_entriesOf_sublist
  rw [Table.get?_ofList keys]
  cases found : f file with
  | some a =>
    apply Table.get?_of_mem keys
    exact List.mem_filterMap.mpr ⟨file, member, by rw [found]; rfl⟩
  | none =>
    apply Table.get?_eq_none
    intro listed
    obtain ⟨entry, present, same⟩ := List.mem_map.mp listed
    obtain ⟨other, memberOther, made⟩ := List.mem_filterMap.mp present
    obtain ⟨a, foundOther, rfl⟩ := Option.map_eq_some_iff.mp made
    rw [List.inj_on_of_nodup_map distinct memberOther member same, found] at foundOther
    cases foundOther

end

namespace Request

def textOf (r : Request) (file : SourceFile) : Option String := (r.contents.get? file.path).join

def present (r : Request) : List SourceFile := r.files.filter fun file => (r.textOf file).isSome

def absent (r : Request) : List SourceFile := r.files.filter fun file => !(r.textOf file).isSome

/-- The text to count for a file: pruned and transformed, from scratch. -/
def fresh (r : Request) (file : SourceFile) : Option String :=
  (r.pruned.get? file.path).map fun text =>
    Transform.apply text file.normalizedExtension r.settings

variable {r : Request} {s : Estimator} {file : SourceFile}

theorem nodup_files (distinct : (r.selected.map (·.path)).Nodup) :
    (r.files.map (·.path)).Nodup :=
  distinct.sublist (List.filter_sublist.map _)

theorem get?_raw (distinct : (r.selected.map (·.path)).Nodup) (member : file ∈ r.files) :
    r.raw.get? file.path = r.textOf file := by
  have found := get?_ofList_entriesOf (f := r.textOf) (g := fun _ text => text)
    (nodup_files distinct) member
  rw [Option.map_id'] at found
  exact found

theorem get?_counted (distinct : (r.selected.map (·.path)).Nodup) (member : file ∈ r.files) :
    (r.counted s).get? file.path =
      ((r.base s).contents.get? file.path).map fun text =>
        Transform.apply text file.normalizedExtension r.settings :=
  get?_ofList_entriesOf (nodup_files distinct) member

theorem exists_fresh (distinct : (r.selected.map (·.path)).Nodup) (member : file ∈ r.present) :
    ∃ text, r.fresh file = some text := by
  obtain ⟨member, given⟩ := List.mem_filter.mp member
  have raw : r.raw.has file.path = true := by
    rw [Table.has, get?_raw distinct member]
    exact given
  have pruned : r.pruned.has file.path = true := by
    unfold pruned
    split
    · exact Prune.has_pruneSelection _ _ _ raw
    · exact raw
  obtain ⟨text, found⟩ := Option.isSome_iff_exists.mp pruned
  exact ⟨_, by rw [fresh, found]; rfl⟩

end Request

def Estimator.known (s : Estimator) (file : SourceFile) : Int :=
  (s.tokenMap.get? file.path).getD 0

theorem Estimator.totalTokens_eq (s : Estimator) (r : Request) :
    s.totalTokens r.selected = total (r.present.map s.known) + total (r.absent.map s.known) :=
  total_filter s.known _ r.files

namespace Session

/-- The count of a path is that of this text, by the strategy at hand or, where that batch failed,
by its length; it came with a merged outcome, and no later one wrote it. -/
def Recorded (encodings : Encodings) (w : Session) (path text : String) : Prop :=
  ∃ delivery, (w.writers path).getLast? = some delivery ∧
    delivery.batch.strategy = w.estimator.strategy ∧
    Table.get? delivery.batch.files path = some text ∧
    w.estimator.tokenMap.get? path = some (delivery.batch.countOf encodings delivery.failure text)

/-- Where the text that was last queued for a path is. -/
inductive Accounted (encodings : Encodings) (w : Session) (path text : String) : Prop where
  | pending (waiting : w.estimator.pending.get? path = some text)
  | outstanding (batch : TokenBatch) (last : w.sent.getLast? = some batch)
      (awaited : w.estimator.outstanding.get? w.estimator.latest = some batch.files)
      (strategy : batch.strategy = w.estimator.strategy)
      (held : Table.get? batch.files path = some text)
  | recorded (counted : Recorded encodings w path text)

structure UpToDate (encodings : Encodings) (w : Session) (r : Request) : Prop where
  strategy : w.estimator.strategy = r.strategy
  counts : ∀ file ∈ r.present, ∃ text, r.fresh file = some text ∧
    Recorded encodings w file.path text
  total : w.estimator.totalTokens r.selected =
    total (r.present.map w.estimator.known) + total (r.absent.map w.estimator.known)

variable {encodings : Encodings} {w : Session} {r : Request}

theorem Written.recorded (ledger : Ledger encodings w) {path text : String}
    (h : w.Written path text) : Recorded encodings w path text := by
  obtain ⟨delivery, last, strategy, held⟩ := h
  refine ⟨delivery, last, strategy, held, ?_⟩
  rw [ledger.replayed.counts path, last, Option.bind_some, Delivery.count?, held, Option.map_some]

theorem Covered.accounted (ledger : Ledger encodings w) (covered : Covered w) {path text : String}
    (queued : w.estimator.fingerprints.get? path = some text) :
    Accounted encodings w path text := by
  rcases covered.somewhere path text queued with waiting | ⟨batch, awaited, last, strategy, held⟩ |
    written
  · exact .pending waiting
  · refine .outstanding batch last ?_ strategy held
    rw [← ledger.numbered.requestId_of_getLast? last]
    exact ledger.numbered.outstanding_get? awaited
  · exact .recorded (written.recorded ledger)

theorem Accounted.recorded_of_idle (idle : w.estimator.phase = .idle) {path text : String}
    (h : Accounted encodings w path text) : Recorded encodings w path text := by
  obtain ⟨nothing, none⟩ := Estimator.idle_iff.mp idle
  cases h with
  | pending waiting => simp [nothing] at waiting
  | outstanding batch _ awaited => simp [none] at awaited
  | recorded counted => exact counted

theorem fingerprint_step (distinct : (r.selected.map (·.path)).Nodup)
    (consistent : ∀ o ∈ r.oracle, o.Consistent)
    (sound : Estimator.CacheSound r.oracle w.estimator) {file : SourceFile}
    (member : file ∈ r.files) {text : String} (fresh : r.fresh file = some text) :
    (w.step encodings (.recompute r)).estimator.fingerprints.get? file.path = some text := by
  change (w.after (r.run w.estimator)).estimator.fingerprints.get? file.path = some text
  have counted : (r.counted w.estimator).get? file.path = some text := by
    rw [Request.get?_counted distinct member, Estimator.base_contents r sound consistent]
    exact fresh
  have keys : (r.counted w.estimator).keys.Nodup := Table.nodup_keys_ofList _
  rw [(sameQuestion_queued w r).fingerprints, Request.queued, Request.changed,
    Estimator.fingerprints_enqueue keys, counted, Option.some_or]

theorem asked_run (covered : Covered (w.step encodings (.recompute r)))
    (distinct : (r.selected.map (·.path)).Nodup) (consistent : ∀ o ∈ r.oracle, o.Consistent)
    (sound : Estimator.CacheSound r.oracle w.estimator) :
    (w.step encodings (.recompute r)).estimator.strategy = r.strategy ∧
      ∀ file ∈ r.files, ∀ text, r.fresh file = some text →
        (w.step encodings (.recompute r)).estimator.fingerprints.get? file.path = some text := by
  have same := sameQuestion_queued w r
  constructor
  · obtain ⟨basis, adopted, strategy⟩ :=
      Estimator.exists_basis_adopt (r.base w.estimator).state r.settings r.strategy
    have kept : basis ∈ (w.step encodings (.recompute r)).estimator.basis := by
      change basis ∈ (w.after (r.run w.estimator)).estimator.basis
      rw [same.basis]
      exact adopted
    rw [← covered.basis basis kept, strategy]
  · intro file member text fresh
    exact fingerprint_step distinct consistent sound member fresh

theorem accounted_run (encodings : Encodings) (interval : Number) {worker : Worker}
    (accepts : worker.accepts = true) {events : List EstimationEvent} (running : .close ∉ events) :
    Ledger encodings ((start interval worker).run encodings events) ∧
      Covered ((start interval worker).run encodings events) :=
  Covered.kept.run running ⟨.start encodings interval accepts, .start interval worker⟩

theorem upToDate_of_idle (encodings : Encodings) (interval : Number) {worker : Worker}
    (accepts : worker.accepts = true) {before after : List EstimationEvent}
    (running : .close ∉ before ++ .recompute r :: after)
    (quiet : ∀ other, .recompute other ∉ after)
    (asked : ∀ other, .recompute other ∈ before → other.oracle = r.oracle)
    (consistent : ∀ oracle ∈ r.oracle, oracle.Consistent)
    (distinct : (r.selected.map (·.path)).Nodup)
    (idle : ((start interval worker).run encodings
      (before ++ .recompute r :: after)).estimator.phase = .idle) :
    UpToDate encodings
      ((start interval worker).run encodings (before ++ .recompute r :: after)) r := by
  obtain ⟨ledger, covered⟩ := accounted_run encodings interval accepts running
  have front : before ++ .recompute r :: after = (before ++ [.recompute r]) ++ after := by
    rw [List.append_assoc, List.singleton_append]
  rw [front] at running ledger covered idle ⊢
  have same : Estimator.SameQuestion
      ((start interval worker).run encodings (before ++ [.recompute r])).estimator
      ((start interval worker).run encodings (before ++ [.recompute r] ++ after)).estimator := by
    rw [run_append encodings _ (before ++ [EstimationEvent.recompute r]) after]
    exact sameQuestion_run quiet
  -- What the request asked for stands from its own step on, whatever came back since.
  have coveredAsked := (accounted_run encodings interval accepts
    (mt (List.mem_append_left after) running)).2
  rw [run_concat] at same coveredAsked
  have sound : Estimator.CacheSound r.oracle
      ((start interval worker).run encodings before).estimator :=
    cacheSound_run asked fun _ present => nomatch present
  obtain ⟨strategy, fingerprints⟩ := asked_run coveredAsked distinct consistent sound
  generalize (start interval worker).run encodings (before ++ [.recompute r] ++ after) = w at *
  refine ⟨same.strategy.trans strategy, ?_, w.estimator.totalTokens_eq r⟩
  intro file member
  obtain ⟨text, fresh⟩ := Request.exists_fresh distinct member
  have queued : w.estimator.fingerprints.get? file.path = some text := by
    rw [same.fingerprints]
    exact fingerprints file (List.mem_filter.mp member).1 text fresh
  exact ⟨text, fresh, (covered.accounted ledger queued).recorded_of_idle idle⟩

/-- In every run each fingerprint is accounted for; and once the last recomputation has settled, the
counts are those of its request. -/
theorem texts_accounted_for (encodings : Encodings) (interval : Number) (worker : Worker)
    (accepts : worker.accepts = true) (events : List EstimationEvent) (running : .close ∉ events) :
    let w := (start interval worker).run encodings events
    (∀ path text, w.estimator.fingerprints.get? path = some text →
      Accounted encodings w path text) ∧
    ∀ before r after, events = before ++ .recompute r :: after →
      (∀ other, .recompute other ∉ after) →
      (∀ other, .recompute other ∈ before → other.oracle = r.oracle) →
      (∀ oracle ∈ r.oracle, oracle.Consistent) → (r.selected.map (·.path)).Nodup →
      w.estimator.phase = .idle → UpToDate encodings w r := by
  intro w
  obtain ⟨ledger, covered⟩ := accounted_run encodings interval accepts running
  refine ⟨fun path text queued => covered.accounted ledger queued, ?_⟩
  rintro before r after rfl quiet asked consistent distinct idle
  exact upToDate_of_idle encodings interval accepts running quiet asked consistent distinct idle

def withdrawn : Request := { Request.ofTexts [("a.py", "")] with contents := [("a.py", none)] }

/-- The total is not the sum over the files with a text: a file that lost its text still counts. -/
theorem totalTokens_withdrawn :
    let w := (start (.int 0) .shared).run (fun _ => .ok .characters)
      [.recompute (.ofTexts [("a.py", "one two")]), .deliver 1 none, .recompute withdrawn]
    w.estimator.phase = .idle ∧ total (withdrawn.present.map w.estimator.known) = 0 ∧
      w.estimator.totalTokens withdrawn.selected = 7 := by
  decide +kernel

def reportsOld : Oracle := fun call =>
  .ok { unreachable := call.files.map fun entry => (entry.1, some ["old"]) }

def beforePruning : Request :=
  { Request.ofTexts [("b.md", "y")] with oracle := some reportsOld }

def pruning : Request :=
  { Request.ofTexts
      [("a.py", "def old():\n    pass\n\ndef used():\n    pass\n"), ("b.md", "x")] with
    oracle := some reportsOld
    settings := { deadCodeElimination := .bool true, entryPoint := .text "a.py" } }

theorem texts_accounted_for_pruning :
    let events := [.recompute beforePruning, .recompute pruning, .deliver 2 none, .deliver 1 none]
    let w := (start (.int 0) .shared).run (fun _ => .ok .characters) events
    Worker.shared.accepts = true ∧ .close ∉ events ∧ reportsOld.Consistent ∧
      (pruning.selected.map (·.path)).Nodup ∧ w.estimator.phase = .idle ∧
      UpToDate (fun _ => .ok .characters) w pruning ∧
      w.estimator.totalTokens pruning.selected = 23 := by
  intro events w
  have running : .close ∉ events := by simp [events]
  have consistent : reportsOld.Consistent := fun _ _ _ _ => rfl
  have distinct : (pruning.selected.map (·.path)).Nodup := by decide +kernel
  have idle : w.estimator.phase = .idle := by decide +kernel
  have settled := (texts_accounted_for _ _ _ rfl events running).2 [.recompute beforePruning]
    pruning [.deliver 2 none, .deliver 1 none] rfl (by simp) (by simp [beforePruning, pruning])
    (by simpa [pruning] using consistent) distinct idle
  exact ⟨rfl, running, consistent, distinct, idle, settled, by decide +kernel⟩

end Session

end PromptPack
