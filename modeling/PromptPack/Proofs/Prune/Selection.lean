import Mathlib.Data.List.Forall2
import PromptPack.Estimation.Base
import PromptPack.Proofs.Table
import PromptPack.Proofs.Trace

/-! Pruning a selection. It sees of a file only the path and the normalized extension, it loses no
path, and a question is the same for it when the entry points are. -/

namespace PromptPack

/-- Entry points that are the same get the same answer. -/
def Oracle.Consistent (oracle : Oracle) : Prop :=
  ∀ (first second : Value) (files : List (String × String)), first.same second = true →
    oracle ⟨first, files⟩ = oracle ⟨second, files⟩

namespace Prune

open Estimator (selectionKey)

variable {found : Reachability} {contents : Table String String} {path : String}

theorem has_pruneFile (file : SourceFile) (h : contents.has path = true) :
    (pruneFile found contents file).value.has path = true := by
  unfold pruneFile
  dsimp only
  split
  · exact h
  · split
    · exact h
    · change (contents.set file.path _).has path = true
      rw [Table.has, Table.get?_set]
      split
      · rfl
      · exact h

theorem has_pruneFiles (files : List SourceFile) (h : contents.has path = true) :
    (files.foldlM (pruneFile found) contents).value.has path = true := by
  rw [Traced.value_foldlM]
  exact List.foldlRecOn (motive := fun contents => Table.has contents path = true) files _ h
    fun _ present file _ => has_pruneFile file present

theorem has_pruneSelection (selected : List SourceFile) (entryPoint : Value)
    (oracle : Option Oracle) (h : contents.has path = true) :
    (pruneSelection selected contents entryPoint oracle).value.contents.has path = true := by
  unfold pruneSelection
  dsimp only
  split
  · exact h
  · split
    · exact h
    · split
      · exact h
      · exact has_pruneFiles _ h

theorem isSome_call_pruneSelection (selected : List SourceFile) (contents : Table String String)
    (entryPoint : Value) (oracle : Option Oracle) :
    (pruneSelection selected contents entryPoint oracle).value.call.isSome = true ↔
      entryPoint.truthy = true ∧ oracle.isSome = true ∧
        ∃ file ∈ selected, file.isEligible = true := by
  have some_eligible : (selected.filter (·.isEligible)).isEmpty = false ↔
      ∃ file ∈ selected, file.isEligible = true := by
    simp [List.isEmpty_eq_false_iff, List.filter_eq_nil_iff]
  unfold pruneSelection
  dsimp only
  cases oracle with
  | none => simp
  | some oracle =>
    rw [← some_eligible]
    dsimp only
    split
    · next unasked =>
      simp only [Bool.or_eq_true, Bool.not_eq_true'] at unasked
      rcases unasked with falsy | empty
      · simp [falsy]
      · simp [empty]
    · next asked =>
      simp only [Bool.or_eq_true, Bool.not_eq_true', not_or, Bool.not_eq_false,
        Bool.not_eq_true] at asked
      split <;> exact iff_of_true rfl ⟨asked.1, rfl, asked.2⟩

/-- The file as far as pruning can see it. -/
def sameKey (first second : SourceFile) : Prop :=
  first.path = second.path ∧ first.normalizedExtension = second.normalizedExtension

theorem forall₂_of_selectionKey {files others : List SourceFile}
    (h : selectionKey files = selectionKey others) : List.Forall₂ sameKey files others := by
  induction files generalizing others with
  | nil =>
    rw [List.map_eq_nil_iff.mp h.symm]
    exact .nil
  | cons file files ih =>
    cases others with
    | nil => simp [selectionKey] at h
    | cons other others =>
      obtain ⟨first, rest⟩ := List.cons.inj h
      exact .cons (Prod.mk.inj first) (ih rest)

variable {files others : List SourceFile}

theorem forall₂_eligible (h : List.Forall₂ sameKey files others)
    (plain : ∀ file ∈ files, file.isDir = false)
    (plainOthers : ∀ file ∈ others, file.isDir = false) :
    List.Forall₂ sameKey (files.filter (·.isEligible)) (others.filter (·.isEligible)) := by
  induction h with
  | nil => exact .nil
  | @cons file other files others same _ ih =>
    obtain ⟨plainFile, plain⟩ := List.forall_mem_cons.mp plain
    obtain ⟨plainOther, plainOthers⟩ := List.forall_mem_cons.mp plainOthers
    have eligible : file.isEligible = other.isEligible := by
      unfold SourceFile.isEligible SourceFile.family
      rw [plainFile, plainOther, same.2]
    rw [List.filter_cons, List.filter_cons, eligible]
    split
    · exact .cons same (ih plain plainOthers)
    · exact ih plain plainOthers

theorem callFor_congr (entryPoint : Value) (contents : Table String String)
    (h : List.Forall₂ sameKey files others) :
    callFor entryPoint contents files = callFor entryPoint contents others := by
  unfold callFor
  congr 1
  induction h with
  | nil => rfl
  | cons same _ ih => rw [List.map_cons, List.map_cons, same.1, ih]

theorem pruneFiles_congr (found : Reachability) (contents : Table String String)
    (h : List.Forall₂ sameKey files others) :
    files.foldlM (pruneFile found) contents = others.foldlM (pruneFile found) contents := by
  induction h generalizing contents with
  | nil => rfl
  | @cons file other _ _ same _ ih =>
    have first : pruneFile found contents file = pruneFile found contents other := by
      unfold pruneFile SourceFile.family
      rw [same.1, same.2]
    rw [List.foldlM_cons, List.foldlM_cons, first]
    congr 1
    funext next
    exact ih next

/-- One question, one answer: which files are asked about shows in the selection key alone. -/
theorem pruneSelection_congr {contents : Table String String} {first second : Value}
    {oracle : Option Oracle} (consistent : ∀ o ∈ oracle, o.Consistent)
    (key : selectionKey files = selectionKey others)
    (plain : ∀ file ∈ files, file.isDir = false) (plainOthers : ∀ file ∈ others, file.isDir = false)
    (truthy : first.truthy = true) (truthySecond : second.truthy = true)
    (same : first.same second = true) :
    (pruneSelection files contents first oracle).value.contents =
      (pruneSelection others contents second oracle).value.contents := by
  have eligible := forall₂_eligible (forall₂_of_selectionKey key) plain plainOthers
  have empty : (files.filter (·.isEligible)).isEmpty = (others.filter (·.isEligible)).isEmpty := by
    rw [Bool.eq_iff_iff, List.isEmpty_iff_length_eq_zero, List.isEmpty_iff_length_eq_zero,
      eligible.length_eq]
  unfold pruneSelection
  cases oracle with
  | none => rfl
  | some oracle =>
    have asked : oracle (callFor first contents (files.filter (·.isEligible))) =
        oracle (callFor second contents (others.filter (·.isEligible))) := by
      rw [callFor_congr first contents eligible]
      exact consistent oracle rfl first second _ same
    dsimp only
    rw [truthy, truthySecond, empty, asked]
    split
    · rfl
    · split
      · rfl
      · next found _ =>
        rw [Traced.value_bind, Traced.value_bind, pruneFiles_congr found contents eligible]
        rfl

end Prune

end PromptPack
