import PromptPack.Budget.PackFile
import PromptPack.Packing.Prepare
import PromptPack.Proofs.Prune.Deletion
import PromptPack.Proofs.Table
import PromptPack.Proofs.Text.Lines
import PromptPack.Proofs.Trace
import PromptPack.Proofs.Transform.Whitespace

/-! Pruning and the transforms only take characters out. What is left of a text is a subsequence of
it, so no count that is estimated from its length grows. Main statement: `transformed_sublist`. -/

namespace PromptPack

theorem Budget.charEstimate_le_of_sublist {content other : String}
    (h : content.toList.Sublist other.toList) :
    Budget.charEstimate content ≤ Budget.charEstimate other := by
  have shorter := h.length_le
  rw [String.length_toList, String.length_toList] at shorter
  exact Nat.div_le_div_right (Nat.add_le_add_right shorter _)

namespace Prune

variable {family : LanguageFamily}

theorem stripSymbols_sublist (symbols : List String) (cs : List Char) :
    (stripSymbols family symbols cs).Sublist cs := by
  have cuts : Strips family symbols cs (stripSymbols family symbols cs) :=
    stripSymbols_cuts symbols cs
  generalize stripSymbols family symbols cs = result at cuts
  induction cuts with
  | done => exact .refl _
  | keep _ _ ih => exact ih
  | cut _ _ removed _ _ ih => exact ih.trans (sublist_of_cuts removed)

theorem stripUnreachable_sublist (content : String) (symbols : List String)
    (family : LanguageFamily) :
    (stripUnreachable content symbols family).value.toList.Sublist content.toList := by
  rw [value_stripUnreachable]
  split
  · exact .refl _
  · rw [String.toList_ofList]
    exact stripSymbols_sublist symbols content.toList

end Prune

namespace Transform

open Text

section

variable {rules : CommentSyntax} {cs rest code passed : List Char} {single double : Bool}

theorem jump_sublist {c : Char} (h : rest.Sublist (c :: cs)) :
    ((jump [] rest c cs).1 ++ (jump [] rest c cs).2.val).Sublist (c :: cs) := by
  unfold jump
  split
  · exact h
  · exact .refl _

theorem suffix_of_afterComment? (found : afterComment? rules cs = some rest) : rest <:+ cs := by
  unfold afterComment? at found
  split at found
  · next inner opened =>
    obtain rfl := Option.some.inj found
    refine .trans ?_ (suffix_of_after? opened)
    cases closed : breakOn? rules.blockCloser inner with
    | none => exact List.nil_suffix
    | some parts => exact suffix_of_breakOn? closed
  · obtain ⟨inner, opened, rfl⟩ := Option.map_eq_some_iff.mp found
    exact (List.dropWhile_suffix _).trans (suffix_of_after? opened)

theorem commentStep_sublist (rules : CommentSyntax) (c : Char) (cs : List Char) :
    ((commentStep rules c cs).1 ++ (commentStep rules c cs).2.val).Sublist (c :: cs) := by
  unfold commentStep
  split
  · next rest found => exact jump_sublist (suffix_of_afterComment? found).sublist
  · split
    · rw [List.cons_append, List.take_append_drop]
    · exact .refl _

theorem prefix_of_beforeHash? {line : List Char}
    (found : beforeHash? single double passed line = some code) :
    code <+: passed.reverse ++ line := by
  fun_induction beforeHash? single double passed line with
  | case1 => cases found
  | case2 _ _ _ _ _ _ ih => simpa using ih found
  | case3 _ _ _ _ _ _ _ ih => simpa using ih found
  | case4 =>
    obtain rfl := Option.some.inj found
    exact List.prefix_append _ _
  | case5 _ _ _ _ _ _ _ _ ih => simpa using ih found

theorem stripHashLine_sublist (line : List Char) : (stripHashLine line).Sublist line := by
  unfold stripHashLine
  split
  · next code found => exact (trimEnd_sublist code).trans (prefix_of_beforeHash? found).sublist
  · exact .refl _

theorem stripHashLines_sublist (parts : List (List Char)) :
    List.Forall₂ List.Sublist (stripHashLines parts) parts := by
  cases parts with
  | nil => exact .nil
  | cons first rest =>
    refine .cons ?_ (List.forall₂_map_left_iff.mpr
      (List.forall₂_same.mpr fun line _ => stripHashLine_sublist line))
    split
    · exact .refl _
    · exact stripHashLine_sublist first

theorem stripHash_sublist (extension : String) (cs : List Char) :
    (stripHash extension cs).Sublist cs := by
  have stripped : (unlines (stripHashLines (lines cs))).Sublist cs := by
    conv => rhs; rw [← unlines_lines cs]
    exact unlines_sublist (stripHashLines_sublist _)
  unfold stripHash
  dsimp only
  split
  · exact (docstrings.apply_sublist _).trans stripped
  · exact stripped

theorem stripComments_sublist (extension : String) (cs : List Char) :
    (stripComments extension cs).Sublist cs := by
  unfold stripComments
  split
  · exact scan_sublist (commentStep_sublist _) cs
  · split
    · exact stripHash_sublist extension cs
    · exact .refl _

theorem clearLines_sublist (p : List Char → Bool) (cs : List Char) :
    (clearLines p cs).Sublist cs := by
  have cleared : ∀ line : List Char, (if p line then [] else line).Sublist line := by
    intro line
    split
    · exact List.nil_sublist line
    · exact .refl _
  have shorter := unlines_map_sublist cleared (lines cs)
  rwa [unlines_lines] at shorter

theorem stripMarkup_sublist (cs : List Char) : (stripMarkup cs).Sublist cs := by
  unfold stripMarkup
  calc tags.apply _ |>.Sublist (voidElements.apply _) := tags.apply_sublist _
    _ |>.Sublist (blockElements.apply _) := voidElements.apply_sublist _
    _ |>.Sublist (htmlComments.apply _) := blockElements.apply_sublist _
    _ |>.Sublist (badges.apply cs) := htmlComments.apply_sublist _
    _ |>.Sublist cs := badges.apply_sublist _

theorem minifyMarkdown_sublist (stripHeadings stripQuotes : Bool) (cs : List Char) :
    (minifyMarkdown stripHeadings stripQuotes cs).Sublist cs := by
  unfold minifyMarkdown
  dsimp only
  refine (trim_sublist _).trans ?_
  have collapsed := (collapseBreaks_sublist _).trans (stripMarkup_sublist cs)
  split <;> split
  · exact (clearLines_sublist _ _).trans ((clearLines_sublist _ _).trans collapsed)
  · exact (clearLines_sublist _ _).trans collapsed
  · exact (clearLines_sublist _ _).trans collapsed
  · exact collapsed

theorem applyChars_sublist (extension : String) (settings : Settings) (cs : List Char) :
    (applyChars extension settings cs).Sublist cs := by
  unfold applyChars
  dsimp only
  have uncommented : (if settings.stripComments.truthy then stripComments extension cs
      else cs).Sublist cs := by
    split
    · exact stripComments_sublist extension cs
    · exact .refl _
  generalize (if settings.stripComments.truthy then stripComments extension cs else cs) = first
    at uncommented
  have reduced : (if settings.reduceWhitespace.truthy then reduceWhitespace first
      else first).Sublist cs := by
    split
    · exact (reduceWhitespace_sublist first).trans uncommented
    · exact uncommented
  split
  · exact (minifyMarkdown_sublist _ _ _).trans reduced
  · exact reduced

theorem apply_sublist (content extension : String) (settings : Settings) :
    (apply content extension settings).toList.Sublist content.toList := by
  rw [apply, String.toList_ofList]
  exact applyChars_sublist _ settings content.toList

end

/-- Pruning a text and then transforming it leaves a subsequence of it, whatever is reported
unreachable and whatever is switched on; neither estimate of its tokens grows. -/
theorem transformed_sublist (content extension : String) (symbols : List String)
    (family : LanguageFamily) (settings : Settings) :
    let pruned := (Prune.stripUnreachable content symbols family).value
    let transformed := apply pruned extension settings
    transformed.toList.Sublist content.toList ∧
      Budget.charEstimate transformed ≤ Budget.charEstimate content ∧
      Budget.estimateTokens transformed ≤ Budget.estimateTokens content := by
  intro pruned transformed
  have left : transformed.toList.Sublist content.toList :=
    (apply_sublist pruned extension settings).trans
      (Prune.stripUnreachable_sublist content symbols family)
  have estimate := Budget.charEstimate_le_of_sublist left
  rw [Budget.estimateTokens_eq, Budget.estimateTokens_eq]
  exact ⟨left, estimate, estimate⟩

end Transform

/-! The same for the files of a packing. -/

/-- Each text of a table is a subsequence of the text that another table has at the path; a missing
text counts as empty. -/
def Shortened (t s : Table String String) : Prop :=
  ∀ path, ((t.get? path).getD "").toList.Sublist ((s.get? path).getD "").toList

namespace Prune

variable {found : Reachability} {s t : Table String String}

theorem shortened_pruneFile (shorter : Shortened t s) (file : SourceFile) :
    Shortened (pruneFile found t file).value s := by
  unfold pruneFile
  dsimp only
  split
  · exact shorter
  · split
    · exact shorter
    · intro path
      rw [Traced.value_bind, Traced.value_pure, Table.get?_set]
      split
      · next same =>
        subst same
        exact (stripUnreachable_sublist _ _ _).trans (shorter file.path)
      · exact shorter path

theorem shortened_pruneFiles (shorter : Shortened t s) (files : List SourceFile) :
    Shortened (files.foldlM (pruneFile found) t).value s := by
  rw [Traced.value_foldlM]
  exact List.foldlRecOn (motive := fun t => Shortened t s) files _ shorter
    fun _ shorter file _ => shortened_pruneFile shorter file

theorem shortened_pruneSelection (selected : List SourceFile) (contents : Table String String)
    (entryPoint : Value) (oracle : Option Oracle) :
    Shortened (pruneSelection selected contents entryPoint oracle).value.contents contents := by
  have same : Shortened contents contents := fun _ => .refl _
  unfold pruneSelection
  dsimp only
  split
  · exact same
  · split
    · exact same
    · split
      · exact same
      · exact shortened_pruneFiles same _

end Prune

namespace Packing

def textAt (contents : Table String (Option String)) (file : SourceFile) : String :=
  ((contents.get? file.path).join).getD ""

theorem get?_rawContents {files : List SourceFile} {file : SourceFile} (member : file ∈ files)
    (contents : Table String (Option String)) :
    (rawContents files contents).get? file.path = some (textAt contents file) := by
  have keyed : rawContents files contents =
      Table.ofKeys (fun path => some (((contents.get? path).join).getD ""))
        (files.map (·.path)) := by
    simp [rawContents, Table.ofKeys]
  rw [keyed, Table.get?_ofKeys, if_pos (List.mem_map_of_mem member), textAt]

section

variable (oracle : Option Oracle) (selected : List SourceFile)
  (contents : Table String (Option String)) (settings : Settings) (tokenMap : Table String Int)

theorem exists_files_prepareFiles :
    ∃ texts, Shortened texts (rawContents (selected.filter (!·.isDir)) contents) ∧
      (prepareFiles oracle selected contents settings tokenMap).value.files =
        (selected.filter (!·.isDir)).map (packFile texts tokenMap settings) := by
  unfold prepareFiles
  dsimp only
  split
  · exact ⟨_, Prune.shortened_pruneSelection _ _ _ _, rfl⟩
  · exact ⟨_, fun _ => .refl _, rfl⟩

variable {oracle selected contents settings tokenMap}

/-- Every prepared file is a selected file with the count that is known for it and a subsequence of
its text. -/
theorem exists_of_mem_prepareFiles {packed : PackFile}
    (member : packed ∈ (prepareFiles oracle selected contents settings tokenMap).value.files) :
    ∃ file ∈ selected, packed.tokenCount = (tokenMap.get? file.path).or file.explicitTokenCount ∧
      packed.content.toList.Sublist (textAt contents file).toList := by
  obtain ⟨texts, shorter, files⟩ :=
    exists_files_prepareFiles oracle selected contents settings tokenMap
  rw [files] at member
  obtain ⟨file, listed, rfl⟩ := List.mem_map.mp member
  have left := shorter file.path
  rw [get?_rawContents listed, Option.getD_some] at left
  exact ⟨file, List.mem_of_mem_filter listed, rfl, (Transform.apply_sublist _ _ _).trans left⟩

end

end Packing

end PromptPack
