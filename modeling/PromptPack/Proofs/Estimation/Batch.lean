import PromptPack.Proofs.Estimation.Session
import PromptPack.Proofs.Trace

/-! What goes into a batch and what its outcome writes. A batch holds the pending files and, of the
batches still awaited, every file whose text is the one last queued. -/

namespace PromptPack

namespace Estimator

def Current (fingerprints files : Table String String) : Prop :=
  ∀ path text, files.get? path = some text → fingerprints.get? path = some text

variable {fingerprints files older : Table String String} {path text : String}

theorem carryOver_cons (entry : String × String) :
    carryOver fingerprints files (entry :: older) =
      carryOver fingerprints
        (if !files.has entry.1 && fingerprints.get? entry.1 == some entry.2
          then files.set entry.1 entry.2 else files) older := rfl

theorem get?_carryOver_of_some (h : files.get? path = some text) :
    (carryOver fingerprints files older).get? path = some text := by
  induction older generalizing files with
  | nil => exact h
  | cons entry older ih =>
    rw [carryOver_cons]
    apply ih
    split
    · next taken =>
      have other : path ≠ entry.1 := by
        rintro rfl
        simp [Table.has, h] at taken
      rw [Table.get?_set, if_neg other, h]
    · exact h

theorem current_carryOver (h : Current fingerprints files) :
    Current fingerprints (carryOver fingerprints files older) := by
  induction older generalizing files with
  | nil => exact h
  | cons entry older ih =>
    rw [carryOver_cons]
    apply ih
    split
    · next taken =>
      intro path text found
      rw [Table.get?_set] at found
      split at found
      · next same =>
        obtain rfl := Option.some.inj found
        subst same
        exact eq_of_beq (Bool.and_eq_true_iff.mp taken).2
      · exact h path text found
    · exact h

theorem nodup_carryOver (distinct : files.keys.Nodup) :
    (carryOver fingerprints files older).keys.Nodup := by
  induction older generalizing files with
  | nil => exact distinct
  | cons entry older ih =>
    rw [carryOver_cons]
    apply ih
    split
    · exact Table.nodup_keys_set distinct _ _
    · exact distinct

theorem get?_carryOver_of_mem (h : Current fingerprints files) (member : (path, text) ∈ older)
    (unchanged : fingerprints.get? path = some text) :
    (carryOver fingerprints files older).get? path = some text := by
  induction older generalizing files with
  | nil => simp at member
  | cons entry older ih =>
    have next : Current fingerprints (carryOver fingerprints files [entry]) :=
      current_carryOver h
    rw [carryOver_cons]
    rcases List.mem_cons.mp member with rfl | member
    · apply get?_carryOver_of_some
      cases found : files.get? path with
      | some held =>
        have same : held = text := Option.some.inj ((h path held found).symm.trans unchanged)
        simp [Table.has, found, same]
      | none => simp [Table.has, found, unchanged, Table.get?_set]
    · exact ih next member

variable {s : Estimator}

theorem get?_nextFiles_of_pending (h : s.pending.get? path = some text) :
    s.nextFiles.get? path = some text :=
  List.foldlRecOn (motive := fun files => Table.get? files path = some text) s.outstanding _ h
    fun _ found _ _ => get?_carryOver_of_some found

theorem current_nextFiles (h : Current s.fingerprints s.pending) :
    Current s.fingerprints s.nextFiles :=
  List.foldlRecOn (motive := Current s.fingerprints) s.outstanding _ h
    fun _ current _ _ => current_carryOver current

theorem nodup_nextFiles (distinct : s.pending.keys.Nodup) : s.nextFiles.keys.Nodup :=
  List.foldlRecOn (motive := fun files => (Table.keys files).Nodup) s.outstanding _ distinct
    fun _ distinct _ _ => nodup_carryOver distinct

theorem get?_nextFiles_of_outstanding {requestId : Int} (h : Current s.fingerprints s.pending)
    (member : (requestId, older) ∈ s.outstanding) (held : older.get? path = some text)
    (unchanged : s.fingerprints.get? path = some text) : s.nextFiles.get? path = some text := by
  obtain ⟨front, back, split⟩ := List.append_of_mem member
  unfold nextFiles
  rw [split, List.foldl_append, List.foldl_cons]
  refine List.foldlRecOn (motive := fun files => Table.get? files path = some text) back _ ?_
    fun _ found _ _ => get?_carryOver_of_some found
  refine get?_carryOver_of_mem ?_ (Table.mem_of_get? held) unchanged
  exact List.foldlRecOn (motive := Current s.fingerprints) front _ h
    fun _ current _ _ => current_carryOver current

def nextBatch (s : Estimator) : TokenBatch := ⟨(s.latest : Int) + 1, s.nextFiles, s.strategy⟩

theorem dispatch_of_nil (h : s.pending = []) :
    s.dispatch = { answer := .ok none, state := s } := by
  unfold dispatch
  rw [h, if_pos List.isEmpty_nil]

theorem dispatch_of_pending (h : s.pending ≠ []) (accepts : s.worker.accepts = true) :
    s.dispatch =
      { answer := .ok (some s.nextBatch.requestId)
        state := s.sent s.nextBatch
        log := [dispatchNotice s.nextBatch]
        submitted := some s.nextBatch } := by
  unfold dispatch
  rw [if_neg (by simpa using h), if_pos accepts]
  rfl

theorem dispatch_of_refused (h : s.pending ≠ []) (refuses : s.worker.accepts = false) :
    s.dispatch =
      { answer := .error .shutDown
        state := s.sent s.nextBatch
        log := [dispatchNotice s.nextBatch] } := by
  unfold dispatch
  rw [if_neg (by simpa using h), if_neg (by simp [refuses])]
  rfl

/-- Sending empties what waits and registers the batch, also if the worker refuses it. -/
theorem exists_dispatch (s : Estimator) : ∃ latest outstanding stats,
    s.dispatch.state = { s with pending := [], latest, outstanding, stats } := by
  by_cases nothing : s.pending = []
  · rw [dispatch_of_nil nothing]
    exact ⟨s.latest, s.outstanding, s.stats, by rw [← nothing]⟩
  · cases accepts : s.worker.accepts with
    | true =>
      rw [dispatch_of_pending nothing accepts]
      exact ⟨_, _, _, rfl⟩
    | false =>
      rw [dispatch_of_refused nothing accepts]
      exact ⟨_, _, _, rfl⟩

theorem merge_eq (tokenMap : Table String Int) (results : List (String × Int)) :
    (merge tokenMap results).1 = tokenMap.setEach results := by
  unfold merge Table.setEach
  exact (List.foldl_hom Prod.fst fun _ _ => rfl).symm

end Estimator

namespace TokenBatch

def countOf (encodings : Encodings) (batch : TokenBatch) (failure : Option String)
    (text : String) : Int :=
  match failure with
  | none => (Tokens.countText encodings batch.strategy text).value
  | some _ => Budget.charEstimate text

def results (encodings : Encodings) (batch : TokenBatch) (failure : Option String) :
    Table String Int :=
  batch.files.map fun entry => (entry.1, batch.countOf encodings failure entry.2)

theorem results_count (encodings : Encodings) (batch : TokenBatch) :
    (batch.count encodings).value = ⟨batch.requestId, batch.results encodings none⟩ := by
  unfold count
  rw [Traced.value_bind, Traced.value_pure, Traced.value_mapM]
  rfl

theorem get?_results (encodings : Encodings) (batch : TokenBatch) (failure : Option String)
    (path : String) :
    (batch.results encodings failure).get? path =
      (Table.get? batch.files path).map (batch.countOf encodings failure) :=
  Table.get?_map _ _ _

theorem keys_results (encodings : Encodings) (batch : TokenBatch) (failure : Option String) :
    (batch.results encodings failure).keys = Table.keys batch.files := by
  unfold results Table.keys
  rw [List.map_map]
  rfl

end TokenBatch

namespace Estimator

variable (encodings : Encodings) (s : Estimator) (batch : TokenBatch) (failure : Option String)

theorem deliver_eq :
    (s.deliver batch (batch.outcome encodings failure)).answer =
        (s.applyResult ⟨batch.requestId, batch.results encodings failure⟩).answer ∧
      (s.deliver batch (batch.outcome encodings failure)).state =
        (s.applyResult ⟨batch.requestId, batch.results encodings failure⟩).state := by
  cases failure with
  | none =>
    unfold TokenBatch.outcome deliver
    rw [TokenBatch.results_count]
    exact ⟨rfl, rfl⟩
  | some reason => exact ⟨rfl, rfl⟩

variable {s batch}

theorem deliver_of_lt (h : batch.requestId < s.latest) :
    (s.deliver batch (batch.outcome encodings failure)).answer = .ok false ∧
      (s.deliver batch (batch.outcome encodings failure)).state =
        { s with
          outstanding := s.outstanding.erase batch.requestId
          stats.resultsDropped := s.stats.resultsDropped + 1 } := by
  obtain ⟨answer, state⟩ := deliver_eq encodings s batch failure
  rw [answer, state]
  unfold applyResult
  dsimp only
  rw [if_pos h]
  exact ⟨rfl, rfl⟩

theorem deliver_of_not_lt (h : ¬ batch.requestId < s.latest) :
    (s.deliver batch (batch.outcome encodings failure)).answer = .ok true ∧
      (s.deliver batch (batch.outcome encodings failure)).state =
        { s with
          outstanding := s.outstanding.erase batch.requestId
          tokenMap := s.tokenMap.setEach (batch.results encodings failure)
          stats.resultsApplied := s.stats.resultsApplied + 1 } := by
  obtain ⟨answer, state⟩ := deliver_eq encodings s batch failure
  rw [answer, state, ← merge_eq]
  unfold applyResult
  dsimp only
  rw [if_neg h]
  exact ⟨rfl, rfl⟩

end Estimator

end PromptPack
