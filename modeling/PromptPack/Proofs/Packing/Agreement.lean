import PromptPack.Packing.Prepare
import PromptPack.Proofs.Estimation.Settled

/-! What is counted is what is packed. The two find their texts apart: packing takes a missing text
for an empty one, while an estimation leaves the file out and may answer from its cache. Pruning
cannot tell the two tables of raw texts apart, so a file with a text is packed with the text that
was counted for it. -/

namespace PromptPack

/-- The tables read the same where a missing text counts as empty. -/
def SameTexts (s t : Table String String) : Prop :=
  ∀ path, (s.get? path).getD "" = (t.get? path).getD ""

namespace Prune

variable {s t : Table String String} {found : Reachability}

theorem callFor_eq_of_sameTexts (same : SameTexts s t) (entryPoint : Value)
    (eligible : List SourceFile) : callFor entryPoint s eligible = callFor entryPoint t eligible := by
  unfold callFor
  congr 1
  apply List.map_congr_left
  intro file _
  rw [same file.path]

theorem sameTexts_pruneFile (same : SameTexts s t) (file : SourceFile) :
    SameTexts (pruneFile found s file).value (pruneFile found t file).value := by
  unfold pruneFile
  dsimp only
  rw [same file.path]
  split
  · exact same
  · split
    · exact same
    · intro path
      rw [Traced.value_bind, Traced.value_bind, Traced.value_pure, Traced.value_pure,
        Table.get?_set, Table.get?_set]
      split
      · rfl
      · exact same path

theorem sameTexts_pruneFiles (same : SameTexts s t) (files : List SourceFile) :
    SameTexts (files.foldlM (pruneFile found) s).value (files.foldlM (pruneFile found) t).value := by
  induction files generalizing s t with
  | nil => exact same
  | cons file files ih =>
    rw [List.foldlM_cons, List.foldlM_cons]
    exact ih (sameTexts_pruneFile same file)

theorem sameTexts_pruneSelection (same : SameTexts s t) (selected : List SourceFile)
    (entryPoint : Value) (oracle : Option Oracle) :
    SameTexts (pruneSelection selected s entryPoint oracle).value.contents
      (pruneSelection selected t entryPoint oracle).value.contents := by
  unfold pruneSelection
  dsimp only
  rw [callFor_eq_of_sameTexts same]
  split
  · exact same
  · split
    · exact same
    · split
      · exact same
      · exact sameTexts_pruneFiles same _

end Prune

theorem get?_ofList_entriesOf_of_notMem {α ν : Type} {files : List SourceFile}
    {f : SourceFile → Option α} {g : SourceFile → α → ν} (distinct : (files.map (·.path)).Nodup)
    {path : String} (absent : path ∉ files.map (·.path)) :
    (Table.ofList (entriesOf f g files)).get? path = none := by
  have keys : ((entriesOf f g files).map Prod.fst).Nodup := distinct.sublist keys_entriesOf_sublist
  rw [Table.get?_ofList keys]
  apply Table.get?_eq_none
  intro listed
  exact absent (keys_entriesOf_sublist.subset listed)

namespace Request

variable {r : Request} {file : SourceFile}

def packed (r : Request) : Table String String :=
  let raw := Packing.rawContents r.files r.contents
  if r.settings.pruningEnabled then
    (Prune.pruneSelection r.files raw r.settings.entryPoint r.oracle).value.contents
  else raw

theorem rawContents_eq (r : Request) : Packing.rawContents r.files r.contents =
    Table.ofList (entriesOf (fun file => some ((r.textOf file).getD "")) (fun _ text => text)
      r.files) := by
  unfold Packing.rawContents entriesOf
  rw [← List.filterMap_eq_map]
  rfl

theorem sameTexts_raw (distinct : (r.selected.map (·.path)).Nodup) :
    SameTexts (Packing.rawContents r.files r.contents) r.raw := by
  have distinct := nodup_files distinct
  have raw : r.raw = Table.ofList (entriesOf r.textOf (fun _ text => text) r.files) := rfl
  rw [rawContents_eq, raw]
  intro path
  by_cases member : path ∈ r.files.map (·.path)
  · obtain ⟨file, selected, rfl⟩ := List.mem_map.mp member
    rw [get?_ofList_entriesOf distinct selected, get?_ofList_entriesOf distinct selected,
      Option.map_some, Option.getD_some, Option.map_id']
  · rw [get?_ofList_entriesOf_of_notMem distinct member,
      get?_ofList_entriesOf_of_notMem distinct member]

theorem sameTexts_packed (distinct : (r.selected.map (·.path)).Nodup) :
    SameTexts r.packed r.pruned := by
  have same := sameTexts_raw distinct
  unfold packed pruned
  dsimp only
  split
  · exact Prune.sameTexts_pruneSelection same _ _ _
  · exact same

theorem files_prepareFiles (r : Request) (tokenMap : Table String Int) :
    (Packing.prepareFiles r.oracle r.selected r.contents r.settings tokenMap).value.files =
      r.files.map (Packing.packFile r.packed tokenMap r.settings) := by
  unfold Packing.prepareFiles packed
  dsimp only
  split <;> rfl

theorem content_packFile (distinct : (r.selected.map (·.path)).Nodup) (member : file ∈ r.present)
    (tokenMap : Table String Int) :
    r.fresh file = some (Packing.packFile r.packed tokenMap r.settings file).content := by
  obtain ⟨text, fresh⟩ := exists_fresh distinct member
  obtain ⟨base, found, rfl⟩ := Option.map_eq_some_iff.mp fresh
  have same := sameTexts_packed distinct file.path
  rw [found, Option.getD_some] at same
  rw [fresh, Packing.packFile]
  dsimp only
  rw [same]

end Request

namespace Session

open Estimator (CacheSound)

variable {encodings : Encodings} {w : Session} {r : Request} {file : SourceFile}

theorem fingerprint_eq_content (distinct : (r.selected.map (·.path)).Nodup)
    (consistent : ∀ o ∈ r.oracle, o.Consistent) (sound : CacheSound r.oracle w.estimator)
    (member : file ∈ r.present) (tokenMap : Table String Int) :
    (w.step encodings (.recompute r)).estimator.fingerprints.get? file.path =
      some (Packing.packFile r.packed tokenMap r.settings file).content :=
  fingerprint_step distinct consistent sound (List.mem_filter.mp member).1
    (Request.content_packFile distinct member tokenMap)

theorem tokenCount_packFile (settled : UpToDate encodings w r)
    (distinct : (r.selected.map (·.path)).Nodup) (member : file ∈ r.present) :
    let packed := Packing.packFile r.packed w.estimator.tokenMap r.settings file
    ∃ delivery : Delivery, delivery.batch.strategy = r.strategy ∧
      Table.get? delivery.batch.files file.path = some packed.content ∧
      packed.tokenCount =
        some (delivery.batch.countOf encodings delivery.failure packed.content) := by
  intro packed
  obtain ⟨text, fresh, delivery, _, strategy, held, counted⟩ := settled.counts file member
  have content : r.fresh file = some packed.content :=
    Request.content_packFile distinct member w.estimator.tokenMap
  obtain rfl := Option.some.inj (content.symm.trans fresh)
  refine ⟨delivery, strategy.trans settled.strategy, held, ?_⟩
  change (w.estimator.tokenMap.get? file.path).or file.explicitTokenCount = _
  rw [counted, Option.some_or]

/-- After any run that asked one oracle, a file with a text is packed with the text that the next
recomputation leaves as its fingerprint; and once that has settled, with the count of this text. -/
theorem counted_is_packed (encodings : Encodings) (interval : Number) (worker : Worker)
    (before : List EstimationEvent) (r : Request)
    (asked : ∀ other, .recompute other ∈ before → other.oracle = r.oracle)
    (consistent : ∀ oracle ∈ r.oracle, oracle.Consistent)
    (distinct : (r.selected.map (·.path)).Nodup) (tokenMap : Table String Int) :
    let w := (start interval worker).run encodings before
    ∃ pack : SourceFile → PackFile,
      (Packing.prepareFiles r.oracle r.selected r.contents r.settings tokenMap).value.files =
        r.files.map pack ∧
      (∀ file ∈ r.present, (pack file).path = file.bundlePath ∧
        (w.step encodings (.recompute r)).estimator.fingerprints.get? file.path =
          some (pack file).content) ∧
      ∀ after, worker.accepts = true → .close ∉ before ++ .recompute r :: after →
        (∀ other, .recompute other ∉ after) →
        (w.run encodings (.recompute r :: after)).estimator.phase = .idle →
        tokenMap = (w.run encodings (.recompute r :: after)).estimator.tokenMap →
        ∀ file ∈ r.present, ∃ delivery : Delivery, delivery.batch.strategy = r.strategy ∧
          Table.get? delivery.batch.files file.path = some (pack file).content ∧
          (pack file).tokenCount =
            some (delivery.batch.countOf encodings delivery.failure (pack file).content) := by
  intro w
  refine ⟨Packing.packFile r.packed tokenMap r.settings, r.files_prepareFiles tokenMap, ?_, ?_⟩
  · intro file member
    have sound : CacheSound r.oracle w.estimator :=
      cacheSound_run asked fun _ present => nomatch present
    exact ⟨rfl, fingerprint_eq_content distinct consistent sound member tokenMap⟩
  · rintro after accepts running quiet idle rfl file member
    rw [← run_append] at idle ⊢
    have settled := upToDate_of_idle encodings interval accepts running quiet asked consistent
      distinct idle
    exact tokenCount_packFile settled distinct member

def withoutText : Request :=
  { pruning with
    selected := SourceFile.ofPath { path := "c.py" } :: pruning.selected
    contents := ("c.py", none) :: pruning.contents }

theorem counted_is_packed_withoutText :
    let w := (start (.int 0) .shared).run (fun _ => .ok .characters) [.recompute pruning]
    let events : List EstimationEvent := [.recompute withoutText, .deliver 2 none, .deliver 1 none]
    let tokenMap := (w.run (fun _ => .ok .characters) events).estimator.tokenMap
    reportsOld.Consistent ∧ (withoutText.selected.map (·.path)).Nodup ∧
      (w.run (fun _ => .ok .characters) events).estimator.phase = .idle ∧
      ∃ pack : SourceFile → PackFile,
        (Packing.prepareFiles withoutText.oracle withoutText.selected withoutText.contents
          withoutText.settings tokenMap).value.files = withoutText.files.map pack ∧
        (withoutText.files.map pack).map (·.tokenCount) = [some 0, some 22, some 1] ∧
        ∀ file ∈ withoutText.present,
          (w.step (fun _ => .ok .characters) (.recompute withoutText)).estimator.fingerprints.get?
            file.path = some (pack file).content ∧
          ∃ delivery : Delivery, (pack file).tokenCount =
            some (delivery.batch.countOf (fun _ => .ok .characters) delivery.failure
              (pack file).content) := by
  intro w events tokenMap
  have consistent : reportsOld.Consistent := fun _ _ _ _ => rfl
  have distinct : (withoutText.selected.map (·.path)).Nodup := by decide +kernel
  have idle : (w.run (fun _ => .ok .characters) events).estimator.phase = .idle := by decide +kernel
  obtain ⟨pack, files, fingerprints, counts⟩ :=
    counted_is_packed (fun _ => .ok .characters) (.int 0) .shared [.recompute pruning] withoutText
      (by simp [pruning, withoutText]) (by simpa [withoutText, pruning] using consistent) distinct
      tokenMap
  have settled := counts [.deliver 2 none, .deliver 1 none] rfl (by simp) (by simp) idle rfl
  have known : (withoutText.files.map pack).map (·.tokenCount) = [some 0, some 22, some 1] := by
    rw [← files]
    decide +kernel
  refine ⟨consistent, distinct, idle, pack, files, known, ?_⟩
  intro file member
  obtain ⟨delivery, _, _, counted⟩ := settled file member
  exact ⟨(fingerprints file member).2, delivery, counted⟩

end Session

end PromptPack
