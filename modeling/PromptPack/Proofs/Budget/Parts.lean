import PromptPack.Proofs.Budget.Balance

/-! The parts that balancing generates, and the files that it leaves whole. Both are read off the
blocks that stand for the files, whether or not the warning about them can be written. -/

namespace PromptPack.Budget

def blocks (files : List PackFile) (ceiling : Int) : List (List PackFile) :=
  files.map (block ((findOversized files (max 1 ceiling)).map (·.path)) (max 1 ceiling))

def generated (files : List PackFile) (ceiling : Int) : List PackFile :=
  ((blocks files ceiling).filter (1 < ·.length)).flatten

def leftWhole (files : List PackFile) (ceiling : Int) : List PackFile :=
  ((blocks files ceiling).filter (¬ 1 < ·.length)).flatten

variable {files : List PackFile} {ceiling : Int} {oversized : List String} {file : PackFile}

theorem arranged_blocks {b : Balance} (balanced : balance files ceiling = .ok b) :
    Arranged files b (blocks files ceiling) := by
  by_cases none : findOversized files (max 1 ceiling) = []
  · obtain rfl := Except.ok.inj ((balance_of_nil none).symm.trans balanced)
    obtain ⟨same, uncut⟩ := flatten_blocks_nil files (max 1 ceiling)
    unfold blocks
    rw [none]
    refine ⟨forall₂_block files, same.symm, ?_, ?_⟩
    · rw [List.map_nil, uncut, List.length_nil]
    · rw [List.map_nil, uncut, List.flatten_nil, List.length_nil]
  · unfold balance at balanced
    dsimp only at balanced
    rw [if_neg (by simpa using none)] at balanced
    cases warned : oversizedWarning (findOversized files (max 1 ceiling)) (max 1 ceiling) with
    | error fault =>
      rw [warned] at balanced
      cases balanced
    | ok warning =>
      rw [warned] at balanced
      obtain rfl := Except.ok.inj balanced
      exact ⟨forall₂_block files, rfl, rfl, rfl⟩

theorem block_of_not_several (single : ¬ 1 < (block oversized ceiling file).length) :
    block oversized ceiling file = [file] := by
  unfold block at single ⊢
  split at single
  · next bears =>
    rw [if_pos bears]
    dsimp only at single ⊢
    split at single
    · next few => exact if_pos few
    · next several =>
      rw [length_partFiles] at single
      exact absurd (Nat.lt_of_not_le several) single
  · next other => exact if_neg other

theorem block_of_several (several : 1 < (block oversized ceiling file).length) :
    1 < (splitByBudget file.content ceiling).length ∧
      block oversized ceiling file = partFiles file (splitByBudget file.content ceiling) := by
  unfold block at several ⊢
  split at several
  · next bears =>
    rw [if_pos bears]
    dsimp only at several ⊢
    split at several
    · exact absurd several (Nat.lt_irrefl 1)
    · next cut => exact ⟨Nat.lt_of_not_le cut, if_neg cut⟩
  · exact absurd several (Nat.lt_irrefl 1)

theorem length_block (oversized : List String) (ceiling : Int) (file : PackFile) :
    (block oversized ceiling file).length =
      if file.path ∈ oversized then (splitByBudget file.content ceiling).length else 1 := by
  unfold block
  simp only [List.contains_iff_mem]
  split
  · have some := List.length_pos_iff.mpr (splitByBudget_ne_nil file.content ceiling)
    split
    · rw [List.length_singleton]
      omega
    · exact length_partFiles
  · rfl

theorem exists_of_mem_generated {part : PackFile} (made : part ∈ generated files ceiling) :
    ∃ file ∈ files, 1 < (splitByBudget file.content (max 1 ceiling)).length ∧
      part ∈ partFiles file (splitByBudget file.content (max 1 ceiling)) := by
  obtain ⟨parts, listed, member⟩ := List.mem_flatten.mp made
  obtain ⟨stands, several⟩ := List.mem_filter.mp listed
  obtain ⟨file, source, rfl⟩ := List.mem_map.mp stands
  obtain ⟨cut, same⟩ := block_of_several (of_decide_eq_true several)
  exact ⟨file, source, cut, same ▸ member⟩

end PromptPack.Budget
