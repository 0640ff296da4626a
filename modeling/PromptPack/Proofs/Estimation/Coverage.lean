import PromptPack.Proofs.Estimation.Cache
import PromptPack.Proofs.Estimation.Ledger

/-! No text is forgotten. The text last queued for a path is still pending, or is in the latest
batch and that batch is awaited, or is the one whose count stands recorded. Late outcomes are
dropped, so this rests on each batch taking along what the older ones would have brought. -/

namespace PromptPack

def TokenBatch.Agrees (batch : TokenBatch) (strategy : Strategy) (path text : String) : Prop :=
  ∀ held, Table.get? batch.files path = some held → held = text ∧ batch.strategy = strategy

namespace Estimator

variable {s : Estimator} {counted : Table String String}

theorem get?_changed (distinct : counted.keys.Nodup) (path : String) :
    (s.changed counted).get? path =
      (counted.get? path).filter fun text => s.fingerprints.get? path != some text :=
  Table.get?_filter distinct (fun path text => s.fingerprints.get? path != some text) path

theorem nodup_changed (distinct : counted.keys.Nodup) : (s.changed counted).keys.Nodup :=
  distinct.sublist (List.filter_sublist.map Prod.fst)

theorem pending_enqueue (distinct : counted.keys.Nodup) (path : String) :
    (s.enqueue (s.changed counted)).pending.get? path =
      ((s.changed counted).get? path).or (s.pending.get? path) :=
  Table.get?_setEach_of_nodup s.pending (nodup_changed distinct) path

theorem fingerprints_enqueue_changed (distinct : counted.keys.Nodup) (path : String) :
    (s.enqueue (s.changed counted)).fingerprints.get? path =
      ((s.changed counted).get? path).or (s.fingerprints.get? path) :=
  Table.get?_setEach_of_nodup s.fingerprints (nodup_changed distinct) path

theorem fingerprints_enqueue (distinct : counted.keys.Nodup) (path : String) :
    (s.enqueue (s.changed counted)).fingerprints.get? path =
      (counted.get? path).or (s.fingerprints.get? path) := by
  rw [fingerprints_enqueue_changed distinct, get?_changed distinct]
  cases counted.get? path with
  | none => rfl
  | some text =>
    by_cases same : s.fingerprints.get? path = some text
    · rw [same]
      simp [Option.filter]
    · simp [Option.filter, same]

theorem enqueue_cases (distinct : counted.keys.Nodup) (path : String) :
    (∃ text, (s.enqueue (s.changed counted)).pending.get? path = some text ∧
        (s.enqueue (s.changed counted)).fingerprints.get? path = some text) ∨
      (s.enqueue (s.changed counted)).pending.get? path = s.pending.get? path ∧
        (s.enqueue (s.changed counted)).fingerprints.get? path = s.fingerprints.get? path := by
  rw [pending_enqueue distinct, fingerprints_enqueue_changed distinct]
  cases (s.changed counted).get? path with
  | some text => exact .inl ⟨text, Option.some_or, Option.some_or⟩
  | none => exact .inr ⟨Option.none_or, Option.none_or⟩

theorem current_enqueue (current : Current s.fingerprints s.pending)
    (distinct : counted.keys.Nodup) :
    Current (s.enqueue (s.changed counted)).fingerprints
      (s.enqueue (s.changed counted)).pending := by
  intro path text waiting
  rcases enqueue_cases distinct path with ⟨fresh, pending, queued⟩ | ⟨pending, same⟩
  · obtain rfl := Option.some.inj (pending.symm.trans waiting)
    exact queued
  · rw [same]
    exact current path text (pending.symm.trans waiting)

theorem exists_basis_adopt (s : Estimator) (settings : Settings) (strategy : Strategy) :
    ∃ basis ∈ (s.adopt settings strategy).basis, basis.2 = strategy := by
  unfold adopt
  split
  · next known =>
    unfold isBasis at known
    obtain ⟨basis, present, same⟩ := (Option.any_eq_true _ _).mp known
    exact ⟨basis, present, eq_of_beq (Bool.and_eq_true_iff.mp same).2⟩
  · exact ⟨(settings, strategy), rfl, rfl⟩

theorem idle_iff : s.phase = .idle ↔ s.pending = [] ∧ s.outstanding = [] := by
  unfold phase
  cases s.pending <;> cases s.outstanding <;> simp

end Estimator

namespace Session

/-- The latest batch is awaited, holds this text and counts as the estimator does now. -/
def UnderWay (w : Session) (path text : String) : Prop :=
  ∃ batch ∈ w.awaited, w.sent.getLast? = some batch ∧ batch.strategy = w.estimator.strategy ∧
    Table.get? batch.files path = some text

/-- The last outcome that wrote the count was of this text, counted as the estimator does now. -/
def Written (w : Session) (path text : String) : Prop :=
  ∃ delivery, (w.writers path).getLast? = some delivery ∧
    delivery.batch.strategy = w.estimator.strategy ∧
    Table.get? delivery.batch.files path = some text

structure Covered (w : Session) : Prop where
  current : Estimator.Current w.estimator.fingerprints w.estimator.pending
  basis : ∀ basis ∈ w.estimator.basis, basis.2 = w.estimator.strategy
  somewhere : ∀ path text, w.estimator.fingerprints.get? path = some text →
    w.estimator.pending.get? path = some text ∨ w.UnderWay path text ∨ w.Written path text
  /-- The outcome of the latest batch will overwrite no count that is right. -/
  guarded : ∀ batch ∈ w.awaited, w.sent.getLast? = some batch →
    ∀ path text, w.estimator.fingerprints.get? path = some text →
      w.estimator.pending.get? path = some text ∨
        batch.Agrees w.estimator.strategy path text

namespace Covered

variable {encodings : Encodings} {w : Session} {batch : TokenBatch} {failure : Option String}

theorem start (interval : Number) (worker : Worker) : Covered (.start interval worker) where
  current := by simp [Session.start, Estimator.Current]
  basis := by simp [Session.start]
  somewhere := by simp [Session.start]
  guarded := by simp [Session.start]

theorem withEstimator (h : Covered w) {s : Estimator}
    (fingerprints : s.fingerprints = w.estimator.fingerprints)
    (pending : s.pending = w.estimator.pending) (basis : s.basis = w.estimator.basis)
    (strategy : s.strategy = w.estimator.strategy) : Covered (w.withEstimator s) where
  current := by
    change Estimator.Current s.fingerprints s.pending
    rw [fingerprints, pending]
    exact h.current
  basis := by
    change ∀ known ∈ s.basis, known.2 = s.strategy
    rw [basis, strategy]
    exact h.basis
  somewhere := by
    intro path text queued
    change s.fingerprints.get? path = some text at queued
    change s.pending.get? path = some text ∨ _
    rw [fingerprints] at queued
    rw [pending]
    rcases h.somewhere path text queued with waiting | ⟨batch, awaited, last, same, held⟩ |
      ⟨delivery, last, same, held⟩
    · exact .inl waiting
    · exact .inr (.inl ⟨batch, awaited, last, same.trans strategy.symm, held⟩)
    · exact .inr (.inr ⟨delivery, last, same.trans strategy.symm, held⟩)
  guarded := by
    change ∀ batch ∈ w.awaited, _ → ∀ path text, s.fingerprints.get? path = some text →
      s.pending.get? path = some text ∨ batch.Agrees s.strategy path text
    rw [fingerprints, pending, strategy]
    exact h.guarded

theorem reset (settings : Settings) (strategy : Strategy) :
    Covered (w.withEstimator { w.estimator with
      fingerprints := []
      pending := []
      basis := some (settings, strategy)
      strategy }) where
  current := by simp [Session.withEstimator, Estimator.Current]
  basis := by simp [Session.withEstimator]
  somewhere := by simp [Session.withEstimator]
  guarded := by simp [Session.withEstimator]

theorem enqueue (h : Covered w) {counted : Table String String} (distinct : counted.keys.Nodup) :
    Covered (w.withEstimator (w.estimator.enqueue (w.estimator.changed counted))) where
  current := Estimator.current_enqueue h.current distinct
  basis := h.basis
  somewhere := by
    intro path text queued
    change (w.estimator.enqueue _).fingerprints.get? path = some text at queued
    rcases Estimator.enqueue_cases distinct path with ⟨fresh, pending, known⟩ | ⟨pending, same⟩
    · obtain rfl := Option.some.inj (known.symm.trans queued)
      exact .inl pending
    · exact (h.somewhere path text (same.symm.trans queued)).imp_left pending.trans
  guarded := by
    intro batch awaited last path text queued
    change (w.estimator.enqueue _).fingerprints.get? path = some text at queued
    rcases Estimator.enqueue_cases distinct path with ⟨fresh, pending, known⟩ | ⟨pending, same⟩
    · obtain rfl := Option.some.inj (known.symm.trans queued)
      exact .inl pending
    · exact (h.guarded batch awaited last path text (same.symm.trans queued)).imp_left pending.trans

theorem sending (h : Covered w) (numbered : Numbered w) : Covered w.sending where
  current := by simp [Session.sending, Estimator.sent, Estimator.Current]
  basis := h.basis
  somewhere := by
    intro path text queued
    have newest : w.sending.sent.getLast? = some w.estimator.nextBatch := List.getLast?_concat
    have listed : w.estimator.nextBatch ∈ w.sending.awaited := List.mem_concat_self
    rcases h.somewhere path text queued with waiting | ⟨batch, awaited, _, _, held⟩ | written
    · exact .inr (.inl ⟨_, listed, newest, rfl, Estimator.get?_nextFiles_of_pending waiting⟩)
    · -- The outcome of that batch will be late now, so the new one takes the text along.
      have outstanding : (batch.requestId, batch.files) ∈ w.estimator.outstanding := by
        rw [numbered.outstanding]
        exact List.mem_map_of_mem awaited
      exact .inr (.inl ⟨_, listed, newest, rfl,
        Estimator.get?_nextFiles_of_outstanding h.current outstanding held queued⟩)
    · exact .inr (.inr written)
  guarded := by
    intro batch _ last path text queued
    have newest : w.sending.sent.getLast? = some w.estimator.nextBatch := List.getLast?_concat
    obtain rfl := Option.some.inj (newest.symm.trans last)
    refine .inr fun held found => ⟨?_, rfl⟩
    have known := Estimator.current_nextFiles h.current path held found
    exact Option.some.inj (known.symm.trans queued)

theorem dropping (h : Covered w) (numbered : Numbered w)
    (older : batch.requestId < w.estimator.latest) : Covered (w.dropping batch failure) where
  current := h.current
  basis := h.basis
  somewhere := by
    intro path text queued
    rcases h.somewhere path text queued with waiting | ⟨other, awaited, last, same, held⟩ |
      ⟨delivery, last, same, held⟩
    · exact .inl waiting
    · -- The latest batch is another one, and stays awaited.
      have newer : other.requestId ≠ batch.requestId := by
        rw [numbered.requestId_of_getLast? last]
        omega
      have still : other ∈ (w.dropping batch failure).awaited :=
        List.mem_filter.mpr ⟨awaited, decide_eq_true newer⟩
      exact .inr (.inl ⟨other, still, last, same, held⟩)
    · refine .inr (.inr ⟨delivery, ?_, same, held⟩)
      rw [writers_dropping]
      exact last
  guarded := fun other awaited => h.guarded other (List.mem_filter.mp awaited).1

theorem merging (h : Covered w) (last : w.sent.getLast? = some batch) (member : batch ∈ w.awaited) :
    Covered (w.merging encodings batch failure) where
  current := h.current
  basis := h.basis
  somewhere := by
    intro path text queued
    have writers := writers_merging encodings w batch failure path
    -- What this outcome writes is what the text counts, if the batch holds the text.
    have write : ∀ held, Table.get? batch.files path = some held → held = text →
        batch.strategy = w.estimator.strategy →
        (w.merging encodings batch failure).Written path text := by
      intro held found same strategy
      refine ⟨⟨batch, failure, true⟩, ?_, strategy, same ▸ found⟩
      rw [writers, Table.has, found, Option.isSome_some, if_pos rfl, List.getLast?_concat]
    rcases h.somewhere path text queued with waiting | ⟨other, _, newest, strategy, held⟩ |
      ⟨delivery, written, strategy, held⟩
    · exact .inl waiting
    · obtain rfl := Option.some.inj (last.symm.trans newest)
      exact .inr (.inr (write text held rfl strategy))
    · rcases h.guarded batch member last path text queued with waiting | agrees
      · exact .inl waiting
      · refine .inr (.inr ?_)
        cases found : Table.get? batch.files path with
        | none =>
          refine ⟨delivery, ?_, strategy, held⟩
          rw [writers, Table.has, found, Option.isSome_none, if_neg Bool.false_ne_true,
            List.append_nil]
          exact written
        | some other =>
          obtain ⟨same, used⟩ := agrees other found
          exact write other found same used
  guarded := by
    intro other awaited newest
    obtain rfl := Option.some.inj (last.symm.trans newest)
    exact absurd rfl (of_decide_eq_true (List.mem_filter.mp awaited).2)

theorem kept : Kept encodings fun w => Ledger encodings w ∧ Covered w where
  timer w generation timer h :=
    ⟨Ledger.kept.timer w generation timer h.1, h.2.withEstimator rfl rfl rfl rfl⟩
  base w cache recomputes hits h :=
    ⟨Ledger.kept.base w cache recomputes hits h.1, h.2.withEstimator rfl rfl rfl rfl⟩
  reset w settings strategy h :=
    ⟨Ledger.kept.reset w settings strategy h.1, .reset settings strategy⟩
  enqueue w counted distinct h :=
    ⟨Ledger.kept.enqueue w counted distinct h.1, h.2.enqueue distinct⟩
  dispatch w h := by
    refine ⟨h.1.dispatch, ?_⟩
    by_cases nothing : w.estimator.pending = []
    · rw [after_dispatch_of_nil nothing]
      exact h.2
    · rw [after_dispatch_of_pending nothing h.1.numbered.accepts]
      exact h.2.sending h.1.numbered
  deliver w batch member failure h := by
    refine ⟨h.1.deliver member failure, ?_⟩
    have numbered := h.1.numbered
    by_cases older : batch.requestId < w.estimator.latest
    · rw [delivered_of_lt older]
      exact h.2.dropping numbered older
    · rw [delivered_of_not_lt older]
      have sent := numbered.awaited.subset member
      have newest : batch.requestId = w.estimator.latest :=
        Int.le_antisymm (numbered.bounds sent).2 (Int.not_lt.mp older)
      exact h.2.merging (numbered.getLast?_of_requestId sent newest) member

end Covered

end Session

end PromptPack
