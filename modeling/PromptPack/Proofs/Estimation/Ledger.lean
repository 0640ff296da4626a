import Mathlib.Data.List.Nodup
import PromptPack.Proofs.Estimation.Batch

/-! The ledger of a session. Requests are numbered from one on, in the order of sending; the batches
that the estimator holds outstanding are those whose outcome is awaited; and an outcome is merged
unless a newer batch was sent, so that the counts are those of the last merged outcomes. -/

namespace PromptPack

namespace Session

/-- The session behind a batch of everything that is pending. -/
def sending (w : Session) : Session :=
  { w with
    estimator := w.estimator.sent w.estimator.nextBatch
    sent := w.sent ++ [w.estimator.nextBatch]
    awaited := w.awaited ++ [w.estimator.nextBatch] }

theorem after_dispatch_of_nil {w : Session} (h : w.estimator.pending = []) :
    w.after w.estimator.dispatch = w := by
  rw [Estimator.dispatch_of_nil h, after_of_submitted_eq_none w rfl]
  rfl

theorem after_dispatch_of_pending {w : Session} (h : w.estimator.pending ≠ [])
    (accepts : w.estimator.worker.accepts = true) :
    w.after w.estimator.dispatch = w.sending := by
  rw [Estimator.dispatch_of_pending h accepts]
  rfl

section

variable {encodings : Encodings} {w : Session} {batch : TokenBatch} {failure : Option String}

def dropping (w : Session) (batch : TokenBatch) (failure : Option String) : Session :=
  { w with
    estimator := { w.estimator with
      outstanding := w.estimator.outstanding.erase batch.requestId
      stats.resultsDropped := w.estimator.stats.resultsDropped + 1 }
    awaited := w.awaited.filter fun other => other.requestId ≠ batch.requestId
    returned := w.returned ++ [⟨batch, failure, false⟩] }

def merging (encodings : Encodings) (w : Session) (batch : TokenBatch)
    (failure : Option String) : Session :=
  { w with
    estimator := { w.estimator with
      outstanding := w.estimator.outstanding.erase batch.requestId
      tokenMap := w.estimator.tokenMap.setEach (batch.results encodings failure)
      stats.resultsApplied := w.estimator.stats.resultsApplied + 1 }
    awaited := w.awaited.filter fun other => other.requestId ≠ batch.requestId
    returned := w.returned ++ [⟨batch, failure, true⟩] }

theorem delivered_of_lt (h : batch.requestId < w.estimator.latest) :
    w.delivered encodings batch failure = w.dropping batch failure := by
  obtain ⟨answer, state⟩ := Estimator.deliver_of_lt encodings failure h
  simp only [delivered, dropping, answer, state]

theorem delivered_of_not_lt (h : ¬ batch.requestId < w.estimator.latest) :
    w.delivered encodings batch failure = w.merging encodings batch failure := by
  obtain ⟨answer, state⟩ := Estimator.deliver_of_not_lt encodings failure h
  simp only [delivered, merging, answer, state]

end

/-- Requests are numbered in the order of sending, and the outstanding ones are those awaited. -/
structure Numbered (w : Session) : Prop where
  accepts : w.estimator.worker.accepts = true
  ids : w.sent.map (·.requestId) = (List.range' 1 w.sent.length).map Int.ofNat
  latest : w.estimator.latest = w.sent.length
  awaited : w.awaited.Sublist w.sent
  outstanding : w.estimator.outstanding = w.awaited.map fun batch => (batch.requestId, batch.files)

namespace Numbered

variable {encodings : Encodings} {w : Session} {batch : TokenBatch}

theorem increasing (h : Numbered w) : (w.sent.map (·.requestId)).Pairwise (· < ·) := by
  have ordered : (List.range' 1 w.sent.length).Pairwise (· < ·) := List.pairwise_lt_range'
  rw [h.ids, List.pairwise_map]
  exact ordered.imp fun less => Int.ofNat_lt.mpr less

theorem bounds (h : Numbered w) (member : batch ∈ w.sent) :
    0 < batch.requestId ∧ batch.requestId ≤ w.estimator.latest := by
  have listed : batch.requestId ∈ w.sent.map (·.requestId) := List.mem_map_of_mem member
  rw [h.ids] at listed
  obtain ⟨number, within, same⟩ := List.mem_map.mp listed
  have same : (number : Int) = batch.requestId := same
  rw [List.mem_range'_1] at within
  rw [h.latest]
  omega

theorem nodup_awaited (h : Numbered w) : (w.awaited.map (·.requestId)).Nodup :=
  (h.increasing.imp fun less => Int.ne_of_lt less).sublist (h.awaited.map _)

theorem outstanding_get? (h : Numbered w) (member : batch ∈ w.awaited) :
    w.estimator.outstanding.get? batch.requestId = some batch.files := by
  rw [h.outstanding]
  apply Table.get?_of_mem
  · rw [Table.keys, List.map_map]
    exact h.nodup_awaited
  · exact List.mem_map.mpr ⟨batch, member, rfl⟩

theorem requestId_of_getLast? (h : Numbered w) (last : w.sent.getLast? = some batch) :
    batch.requestId = w.estimator.latest := by
  obtain ⟨front, split⟩ := List.getLast?_eq_some_iff.mp last
  have ids := h.ids
  rw [split, List.map_append, List.length_append, List.length_singleton, List.range'_1_concat,
    List.map_append] at ids
  have lasts := (List.append_inj' ids rfl).2
  rw [h.latest, split, List.length_append, List.length_singleton]
  simp only [List.map_cons, List.map_nil, List.cons.injEq, and_true] at lasts
  rw [lasts]
  exact congrArg Int.ofNat (Nat.add_comm 1 front.length)

theorem eq_of_requestId (h : Numbered w) {other : TokenBatch} (member : batch ∈ w.sent)
    (memberOther : other ∈ w.sent) (same : batch.requestId = other.requestId) : batch = other :=
  List.inj_on_of_nodup_map (h.increasing.imp fun less => Int.ne_of_lt less) member memberOther same

theorem getLast?_of_requestId (h : Numbered w) (member : batch ∈ w.sent)
    (newest : batch.requestId = w.estimator.latest) : w.sent.getLast? = some batch := by
  cases last : w.sent.getLast? with
  | none => rw [List.getLast?_eq_none_iff.mp last] at member; simp at member
  | some other =>
    have same := (h.requestId_of_getLast? last).trans newest.symm
    rw [h.eq_of_requestId (List.mem_of_getLast? last) member same]

theorem lt_latest_iff (h : Numbered w) (member : batch ∈ w.sent) :
    batch.requestId < w.estimator.latest ↔
      ¬ ∀ other ∈ w.sent, other.requestId ≤ batch.requestId := by
  constructor
  · intro older all
    have last := List.getLast?_eq_some_getLast (List.ne_nil_of_mem member)
    have bound := all _ (List.mem_of_getLast? last)
    rw [h.requestId_of_getLast? last] at bound
    omega
  · intro newer
    apply Int.not_le.mp
    intro newest
    exact newer fun other present => Int.le_trans (h.bounds present).2 newest

theorem sending (h : Numbered w) : Numbered w.sending where
  accepts := h.accepts
  ids := by
    change (w.sent ++ [w.estimator.nextBatch]).map _ = (List.range' 1 (w.sent ++ _).length).map _
    rw [List.map_append, List.length_append, List.length_singleton, List.range'_1_concat,
      List.map_append, h.ids]
    have next : w.estimator.nextBatch.requestId = Int.ofNat (1 + w.sent.length) := by
      change (w.estimator.latest : Int) + 1 = _
      rw [h.latest, Nat.add_comm]
      rfl
    rw [List.map_singleton, List.map_singleton, next]
  latest := by
    change w.estimator.latest + 1 = (w.sent ++ [w.estimator.nextBatch]).length
    rw [h.latest, List.length_append, List.length_singleton]
  awaited := h.awaited.append (List.Sublist.refl _)
  outstanding := by
    change w.estimator.outstanding.set w.estimator.nextBatch.requestId _ =
      (w.awaited ++ [w.estimator.nextBatch]).map _
    rw [Table.set_eq_append, h.outstanding, List.map_append]
    · rfl
    · rw [h.outstanding, Table.keys, List.map_map]
      intro present
      obtain ⟨batch, member, same⟩ := List.mem_map.mp present
      have bound := (h.bounds (h.awaited.subset member)).2
      have next : batch.requestId = w.estimator.latest + 1 := same
      omega

theorem settled (h : Numbered w) (batch : TokenBatch) :
    w.estimator.outstanding.erase batch.requestId =
      (w.awaited.filter fun other => other.requestId ≠ batch.requestId).map
        fun batch => (batch.requestId, batch.files) := by
  rw [h.outstanding, Table.erase, List.filter_map]
  rfl

theorem dropping (h : Numbered w) (batch : TokenBatch) (failure : Option String) :
    Numbered (w.dropping batch failure) :=
  ⟨h.accepts, h.ids, h.latest, List.filter_sublist.trans h.awaited, h.settled batch⟩

theorem merging (h : Numbered w) (batch : TokenBatch) (failure : Option String) :
    Numbered (w.merging encodings batch failure) :=
  ⟨h.accepts, h.ids, h.latest, List.filter_sublist.trans h.awaited, h.settled batch⟩

end Numbered

theorem length_settled {batches : List TokenBatch} {batch : TokenBatch}
    (distinct : (batches.map (·.requestId)).Nodup) (member : batch ∈ batches) :
    (batches.filter fun other => other.requestId ≠ batch.requestId).length + 1 =
      batches.length := by
  induction batches with
  | nil => simp at member
  | cons first rest ih =>
    obtain ⟨absent, distinct⟩ := List.nodup_cons.mp distinct
    by_cases same : first.requestId = batch.requestId
    · have others : rest.filter (fun other => other.requestId ≠ batch.requestId) = rest := by
        rw [List.filter_eq_self]
        intro other present
        rw [decide_eq_true_eq]
        intro equal
        exact absent (List.mem_map.mpr ⟨other, present, equal.trans same.symm⟩)
      rw [List.filter_cons_of_neg (by simpa using same), others, List.length_cons]
    · have later : batch ∈ rest := by
        rcases List.mem_cons.mp member with rfl | later
        · exact absurd rfl same
        · exact later
      rw [List.filter_cons_of_pos (by simpa using same), List.length_cons, List.length_cons,
        ih distinct later]

structure Balanced (w : Session) : Prop where
  dispatched : w.estimator.stats.batchesDispatched = w.sent.length
  sum : w.sent.length = w.returned.length + w.awaited.length
  applied : w.estimator.stats.resultsApplied = w.returned.countP (·.merged)
  dropped : w.estimator.stats.resultsDropped = w.returned.countP (!·.merged)
  past : ∀ delivery ∈ w.returned, delivery.batch ∈ w.sent ∧ delivery.batch ∉ w.awaited
  increasing : ((w.returned.filter (·.merged)).map (·.batch.requestId)).Pairwise (· < ·)
  newest : ∀ delivery ∈ w.returned,
    delivery.batch.requestId = w.estimator.latest → delivery.merged = true

namespace Balanced

variable {encodings : Encodings} {w : Session} {batch : TokenBatch}

theorem sending (h : Balanced w) (numbered : Numbered w) : Balanced w.sending where
  dispatched := by
    change w.estimator.stats.batchesDispatched + 1 = (w.sent ++ [_]).length
    rw [h.dispatched, List.length_append, List.length_singleton]
  sum := by
    change (w.sent ++ [_]).length = w.returned.length + (w.awaited ++ [_]).length
    rw [List.length_append, List.length_append, h.sum, List.length_singleton, Nat.add_assoc]
  applied := h.applied
  dropped := h.dropped
  past := by
    intro delivery member
    obtain ⟨sent, settled⟩ := h.past delivery member
    refine ⟨List.mem_append_left _ sent, ?_⟩
    intro present
    rcases List.mem_append.mp present with present | present
    · exact settled present
    · have next := congrArg TokenBatch.requestId (List.mem_singleton.mp present)
      have next : delivery.batch.requestId = w.estimator.latest + 1 := next
      have bound := (numbered.bounds sent).2
      omega
  increasing := h.increasing
  newest := by
    intro delivery member next
    have next : delivery.batch.requestId = ((w.estimator.latest + 1 : Nat) : Int) := next
    have bound := (numbered.bounds (h.past delivery member).1).2
    omega

variable {failure : Option String}

theorem past_settled (h : Balanced w) (sent : batch ∈ w.sent) (merged : Bool) :
    ∀ delivery ∈ w.returned ++ [⟨batch, failure, merged⟩], delivery.batch ∈ w.sent ∧
      delivery.batch ∉ w.awaited.filter fun other => other.requestId ≠ batch.requestId := by
  intro delivery member
  rcases List.mem_append.mp member with member | member
  · obtain ⟨sent, settled⟩ := h.past delivery member
    exact ⟨sent, fun present => settled (List.mem_filter.mp present).1⟩
  · obtain rfl := List.mem_singleton.mp member
    refine ⟨sent, fun present => ?_⟩
    exact absurd rfl (of_decide_eq_true (List.mem_filter.mp present).2)

theorem sum_settled (h : Balanced w) (numbered : Numbered w) (member : batch ∈ w.awaited)
    (delivery : Delivery) :
    w.sent.length = (w.returned ++ [delivery]).length +
      (w.awaited.filter fun other => other.requestId ≠ batch.requestId).length := by
  have settled := length_settled numbered.nodup_awaited member
  rw [List.length_append, List.length_singleton, h.sum]
  omega

theorem dropping (h : Balanced w) (numbered : Numbered w) (member : batch ∈ w.awaited)
    (older : batch.requestId < w.estimator.latest) : Balanced (w.dropping batch failure) where
  dispatched := h.dispatched
  sum := h.sum_settled numbered member _
  applied := by
    change w.estimator.stats.resultsApplied = (w.returned ++ [_]).countP _
    rw [List.countP_append, h.applied]
    rfl
  dropped := by
    change w.estimator.stats.resultsDropped + 1 = (w.returned ++ [_]).countP _
    rw [List.countP_append, h.dropped]
    rfl
  past := h.past_settled (numbered.awaited.subset member) false
  increasing := by
    change (((w.returned ++ [_]).filter Delivery.merged).map _).Pairwise _
    rw [List.filter_append, List.filter_cons_of_neg Bool.false_ne_true, List.filter_nil,
      List.append_nil]
    exact h.increasing
  newest := by
    intro delivery present same
    rcases List.mem_append.mp present with present | present
    · exact h.newest delivery present same
    · obtain rfl := List.mem_singleton.mp present
      exact absurd same (Int.ne_of_lt older)

theorem merging (h : Balanced w) (numbered : Numbered w) (member : batch ∈ w.awaited)
    (newest : ¬ batch.requestId < w.estimator.latest) :
    Balanced (w.merging encodings batch failure) where
  dispatched := h.dispatched
  sum := h.sum_settled numbered member _
  applied := by
    change w.estimator.stats.resultsApplied + 1 = (w.returned ++ [_]).countP _
    rw [List.countP_append, h.applied]
    rfl
  dropped := by
    change w.estimator.stats.resultsDropped = (w.returned ++ [_]).countP _
    rw [List.countP_append, h.dropped]
    rfl
  past := h.past_settled (numbered.awaited.subset member) true
  increasing := by
    change (((w.returned ++ [_]).filter Delivery.merged).map _).Pairwise _
    rw [List.filter_append, List.filter_cons_of_pos rfl, List.filter_nil, List.map_append,
      List.pairwise_append]
    refine ⟨h.increasing, List.pairwise_singleton _ _, ?_⟩
    intro earlier listed last same
    obtain rfl := List.mem_singleton.mp same
    obtain ⟨delivery, present, rfl⟩ := List.mem_map.mp listed
    -- An earlier outcome is of another batch, and no batch is newer than this one.
    obtain ⟨sent, settled⟩ := h.past delivery (List.mem_filter.mp present).1
    have bound := (numbered.bounds sent).2
    have other : delivery.batch.requestId ≠ batch.requestId := by
      intro same
      rw [numbered.eq_of_requestId sent (numbered.awaited.subset member) same] at settled
      exact settled member
    change delivery.batch.requestId < batch.requestId
    omega
  newest := by
    intro delivery present same
    rcases List.mem_append.mp present with present | present
    · exact h.newest delivery present same
    · obtain rfl := List.mem_singleton.mp present
      rfl

end Balanced

end Session

namespace Delivery

def count? (encodings : Encodings) (d : Delivery) (path : String) : Option Int :=
  (Table.get? d.batch.files path).map (d.batch.countOf encodings d.failure)

def wrote (path : String) (d : Delivery) : Bool := d.merged && Table.has d.batch.files path

end Delivery

namespace Session

def writers (w : Session) (path : String) : List Delivery := w.returned.filter (·.wrote path)

theorem writers_dropping (w : Session) (batch : TokenBatch) (failure : Option String)
    (path : String) : (w.dropping batch failure).writers path = w.writers path := by
  change (w.returned ++ [_]).filter (Delivery.wrote path) = _
  rw [List.filter_append, List.filter_cons_of_neg (by simp [Delivery.wrote]), List.filter_nil,
    List.append_nil]
  rfl

theorem writers_merging (encodings : Encodings) (w : Session) (batch : TokenBatch)
    (failure : Option String) (path : String) :
    (w.merging encodings batch failure).writers path =
      w.writers path ++ if Table.has batch.files path then [⟨batch, failure, true⟩] else [] := by
  have wrote : (Delivery.mk batch failure true).wrote path = Table.has batch.files path := rfl
  change (w.returned ++ [_]).filter (Delivery.wrote path) = _
  rw [List.filter_append, List.filter_cons, List.filter_nil, wrote]
  rfl

structure Replayed (encodings : Encodings) (w : Session) : Prop where
  pending : w.estimator.pending.keys.Nodup
  files : ∀ batch ∈ w.awaited, (Table.keys batch.files).Nodup
  counts : ∀ path, w.estimator.tokenMap.get? path =
    (w.writers path).getLast?.bind (·.count? encodings path)

namespace Replayed

variable {encodings : Encodings} {w : Session} {batch : TokenBatch} {failure : Option String}

theorem sending (h : Replayed encodings w) : Replayed encodings w.sending where
  pending := List.nodup_nil
  files := by
    intro batch member
    rcases List.mem_append.mp member with member | member
    · exact h.files batch member
    · obtain rfl := List.mem_singleton.mp member
      exact Estimator.nodup_nextFiles h.pending
  counts := h.counts

theorem files_settled (h : Replayed encodings w) (batch : TokenBatch) :
    ∀ other ∈ w.awaited.filter fun other => other.requestId ≠ batch.requestId,
      (Table.keys other.files).Nodup :=
  fun other member => h.files other (List.mem_filter.mp member).1

theorem dropping (h : Replayed encodings w) : Replayed encodings (w.dropping batch failure) where
  pending := h.pending
  files := h.files_settled batch
  counts := by
    intro path
    rw [writers_dropping]
    exact h.counts path

theorem merging (h : Replayed encodings w) (member : batch ∈ w.awaited) :
    Replayed encodings (w.merging encodings batch failure) where
  pending := h.pending
  files := h.files_settled batch
  counts := by
    intro path
    let delivery : Delivery := ⟨batch, failure, true⟩
    have distinct : (batch.results encodings failure).keys.Nodup := by
      rw [TokenBatch.keys_results]
      exact h.files batch member
    have written : (w.merging encodings batch failure).estimator.tokenMap.get? path =
        (delivery.count? encodings path).or (w.estimator.tokenMap.get? path) := by
      change (w.estimator.tokenMap.setEach _).get? path = _
      rw [Table.get?_setEach_of_nodup _ distinct, TokenBatch.get?_results]
      rfl
    rw [written, writers_merging]
    cases held : Table.get? batch.files path with
    | none => simp [Delivery.count?, delivery, Table.has, held, h.counts path]
    | some text => simp [Delivery.count?, delivery, Table.has, held]

end Replayed

structure Ledger (encodings : Encodings) (w : Session) : Prop where
  numbered : Numbered w
  balanced : Balanced w
  replayed : Replayed encodings w

namespace Ledger

variable (encodings : Encodings) {w : Session}

theorem start (interval : Number) {worker : Worker} (accepts : worker.accepts = true) :
    Ledger encodings (.start interval worker) where
  numbered := ⟨accepts, rfl, rfl, List.Sublist.refl _, rfl⟩
  balanced :=
    ⟨rfl, rfl, rfl, rfl, by simp [Session.start], List.Pairwise.nil, by simp [Session.start]⟩
  replayed := ⟨List.nodup_nil, by simp [Session.start], fun _ => rfl⟩

variable {encodings}

theorem dispatch (h : Ledger encodings w) : Ledger encodings (w.after w.estimator.dispatch) := by
  by_cases nothing : w.estimator.pending = []
  · rw [after_dispatch_of_nil nothing]
    exact h
  · rw [after_dispatch_of_pending nothing h.numbered.accepts]
    exact ⟨h.numbered.sending, h.balanced.sending h.numbered, h.replayed.sending⟩

theorem deliver (h : Ledger encodings w) {batch : TokenBatch} (member : batch ∈ w.awaited)
    (failure : Option String) : Ledger encodings (w.delivered encodings batch failure) := by
  by_cases older : batch.requestId < w.estimator.latest
  · rw [delivered_of_lt older]
    exact ⟨h.numbered.dropping batch failure, h.balanced.dropping h.numbered member older,
      h.replayed.dropping⟩
  · rw [delivered_of_not_lt older]
    exact ⟨h.numbered.merging batch failure, h.balanced.merging h.numbered member older,
      h.replayed.merging member⟩

theorem withEstimator (h : Ledger encodings w) {s : Estimator}
    (worker : s.worker = w.estimator.worker) (latest : s.latest = w.estimator.latest)
    (outstanding : s.outstanding = w.estimator.outstanding)
    (dispatched : s.stats.batchesDispatched = w.estimator.stats.batchesDispatched)
    (applied : s.stats.resultsApplied = w.estimator.stats.resultsApplied)
    (dropped : s.stats.resultsDropped = w.estimator.stats.resultsDropped)
    (tokenMap : s.tokenMap = w.estimator.tokenMap) (pending : s.pending.keys.Nodup) :
    Ledger encodings (w.withEstimator s) where
  numbered := by
    obtain ⟨accepts, ids, number, awaited, held⟩ := h.numbered
    exact ⟨worker ▸ accepts, ids, latest.trans number, awaited, outstanding.trans held⟩
  balanced := by
    obtain ⟨number, sum, merged, stale, past, increasing, newest⟩ := h.balanced
    refine ⟨dispatched.trans number, sum, applied.trans merged, dropped.trans stale, past,
      increasing, ?_⟩
    intro delivery member same
    exact newest delivery member (same.trans (congrArg Int.ofNat latest))
  replayed := ⟨pending, h.replayed.files, fun path => tokenMap ▸ h.replayed.counts path⟩

theorem kept : Kept encodings (Ledger encodings) where
  timer _ _ _ h := h.withEstimator rfl rfl rfl rfl rfl rfl rfl h.replayed.pending
  base _ _ _ _ h := h.withEstimator rfl rfl rfl rfl rfl rfl rfl h.replayed.pending
  reset _ _ _ h := h.withEstimator rfl rfl rfl rfl rfl rfl rfl List.nodup_nil
  enqueue _ _ _ h := h.withEstimator rfl rfl rfl rfl rfl rfl rfl
    (Table.nodup_keys_setEach h.replayed.pending _)
  dispatch _ h := h.dispatch
  deliver _ _ member failure h := h.deliver member failure

theorem run {interval : Number} {worker : Worker} (accepts : worker.accepts = true)
    {events : List EstimationEvent} (running : .close ∉ events) :
    Ledger encodings ((Session.start interval worker).run encodings events) :=
  kept.run running (.start encodings interval accepts)

end Ledger

structure InOrder (encodings : Encodings) (w : Session) : Prop where
  ids : w.sent.map (·.requestId) = (List.range' 1 w.sent.length).map Int.ofNat
  /-- An outcome is merged exactly if no newer batch was sent before it came back. -/
  answer : ∀ batch ∈ w.awaited, ∀ failure,
    (w.estimator.deliver batch (batch.outcome encodings failure)).answer =
      .ok (decide (∀ other ∈ w.sent, other.requestId ≤ batch.requestId))
  dropped : ∀ batch ∈ w.awaited, ∀ failure,
    (w.estimator.deliver batch (batch.outcome encodings failure)).answer = .ok false →
      (w.estimator.deliver batch (batch.outcome encodings failure)).state.tokenMap =
        w.estimator.tokenMap
  /-- The outcomes that wrote a count are of ever newer requests, and the last one stands. -/
  writers : ∀ path, ((w.writers path).map (·.batch.requestId)).Pairwise (· < ·) ∧
    w.estimator.tokenMap.get? path = (w.writers path).getLast?.bind (·.count? encodings path)
  newest : ∀ delivery ∈ w.returned, w.sent.getLast? = some delivery.batch → delivery.merged = true
  dispatched : w.estimator.stats.batchesDispatched = w.estimator.latest
  accounts : w.estimator.latest = w.estimator.stats.resultsApplied +
    w.estimator.stats.resultsDropped + w.estimator.outstanding.length

theorem Ledger.writers_increase {encodings : Encodings} {w : Session} (h : Ledger encodings w)
    (path : String) : ((w.writers path).map (·.batch.requestId)).Pairwise (· < ·) := by
  have merged : w.writers path = (w.returned.filter (·.merged)).filter (·.wrote path) := by
    rw [List.filter_filter]
    apply List.filter_congr
    intro delivery _
    cases merged : delivery.merged <;> simp [Delivery.wrote, merged]
  rw [merged]
  exact h.balanced.increasing.sublist (List.filter_sublist.map _)

theorem Ledger.accounts {encodings : Encodings} {w : Session} (h : Ledger encodings w) :
    w.estimator.latest = w.estimator.stats.resultsApplied + w.estimator.stats.resultsDropped +
      w.estimator.outstanding.length := by
  have split := List.length_eq_countP_add_countP Delivery.merged (l := w.returned)
  rw [h.numbered.latest, h.balanced.sum, split, h.balanced.applied, h.balanced.dropped,
    h.numbered.outstanding, List.length_map]
  simp only [Bool.not_eq_true, Bool.decide_eq_false]

/-- In every run the counts follow the order of the requests and nothing is lost count of. -/
theorem outcomes_in_order (encodings : Encodings) (interval : Number) (worker : Worker)
    (accepts : worker.accepts = true) (events : List EstimationEvent) (running : .close ∉ events) :
    InOrder encodings ((start interval worker).run encodings events) := by
  have ledger : Ledger encodings ((start interval worker).run encodings events) :=
    Ledger.run accepts running
  generalize (start interval worker).run encodings events = w at ledger
  have numbered := ledger.numbered
  refine ⟨numbered.ids, ?_, ?_, ?_, ?_, ?_, ledger.accounts⟩
  · intro batch member failure
    have newer := numbered.lt_latest_iff (numbered.awaited.subset member)
    by_cases older : batch.requestId < w.estimator.latest
    · rw [(Estimator.deliver_of_lt encodings failure older).1, decide_eq_false (newer.mp older)]
    · rw [(Estimator.deliver_of_not_lt encodings failure older).1,
        decide_eq_true (Decidable.not_not.mp (mt newer.mpr older))]
  · intro batch member failure answer
    by_cases older : batch.requestId < w.estimator.latest
    · rw [(Estimator.deliver_of_lt encodings failure older).2]
    · rw [(Estimator.deliver_of_not_lt encodings failure older).1] at answer
      cases answer
  · exact fun path => ⟨ledger.writers_increase path, ledger.replayed.counts path⟩
  · intro delivery member last
    exact ledger.balanced.newest delivery member (numbered.requestId_of_getLast? last)
  · rw [ledger.balanced.dispatched, numbered.latest]

/-- A file is edited while its count is awaited, and the outcomes come back the wrong way round. -/
def overtaken : List EstimationEvent :=
  [.recompute (.ofTexts [("a.py", "x")]), .recompute (.ofTexts [("a.py", "xy")]),
    .deliver 2 none, .deliver 1 none]

theorem outcomes_in_order_overtaken :
    Worker.shared.accepts = true ∧ .close ∉ overtaken ∧
      InOrder (fun _ => .ok .characters)
        ((start (.int 0) .shared).run (fun _ => .ok .characters) overtaken) ∧
      ((start (.int 0) .shared).run (fun _ => .ok .characters) overtaken).returned.map (·.merged) =
        [true, false] := by
  have running : .close ∉ overtaken := by simp [overtaken]
  exact ⟨rfl, running, outcomes_in_order _ _ _ rfl overtaken running, by decide +kernel⟩

end Session

end PromptPack
