import PromptPack.Proofs.Budget.Overrun

/-! What stands in the place of one file. Whether a file is cut is asked of its path alone; so a
file that is not above the ceiling can be cut along with one that is, if both bear the same path.
Main statement: `cut_of_small_iff`. -/

namespace PromptPack.Budget

variable {files : List PackFile} {ceiling : Int} {file : PackFile} {path : String}

def standing (files : List PackFile) (ceiling : Int) (file : PackFile) : List PackFile :=
  block ((findOversized files (max 1 ceiling)).map (·.path)) (max 1 ceiling) file

theorem arranged_standing {b : Balance} (balanced : balance files ceiling = .ok b) :
    Arranged files b (files.map (standing files ceiling)) := arranged_blocks balanced

def BearsOversized (files : List PackFile) (ceiling : Int) (path : String) : Prop :=
  ∃ file ∈ files, file.path = path ∧ max 1 ceiling < file.effectiveTokens

theorem mem_oversized_iff :
    path ∈ (findOversized files (max 1 ceiling)).map (·.path) ↔
      BearsOversized files ceiling path := by
  rw [findOversized_eq files (by omega), List.map_map]
  simp [BearsOversized, and_left_comm, and_comm]

theorem bearsOversized_iff (member : file ∈ files)
    (unique : ∀ other ∈ files, other.path = file.path → other = file) :
    BearsOversized files ceiling file.path ↔ max 1 ceiling < file.effectiveTokens := by
  constructor
  · rintro ⟨other, listed, same, above⟩
    rwa [unique other listed same] at above
  · exact fun above => ⟨file, member, rfl, above⟩

theorem several_standing_iff :
    1 < (standing files ceiling file).length ↔
      BearsOversized files ceiling file.path ∧
        1 < (splitByBudget file.content (max 1 ceiling)).length := by
  rw [standing, length_block, ← mem_oversized_iff]
  split <;> simp [*]

theorem length_standing (several : 1 < (standing files ceiling file).length) :
    (standing files ceiling file).length =
      (splitByBudget file.content (max 1 ceiling)).length := by
  have bears := mem_oversized_iff.mpr (several_standing_iff.mp several).1
  rw [standing, length_block, if_pos bears]

theorem standing_ne_iff :
    standing files ceiling file ≠ [file] ↔ 1 < (standing files ceiling file).length := by
  constructor
  · intro cut
    by_contra single
    exact cut (block_of_not_several single)
  · intro several same
    rw [same] at several
    exact Nat.lt_irrefl 1 several

theorem splitByBudget_of_small {limit : Int} (uncounted : file.tokenCount = none)
    (positive : 0 ≤ limit) (small : file.effectiveTokens ≤ limit) :
    splitByBudget file.content limit = [file.content] :=
  splitByBudget_of_fits (.inr ((effectiveTokens_le_iff uncounted positive).mp small))

/-- A file that is not above the ceiling is cut exactly if it bears the path of one that is, and its
known count hides that its text makes several parts. Every other such file stays as it is. -/
theorem cut_of_small_iff (files : List PackFile) (ceiling : Int) :
    (∀ b, balance files ceiling = .ok b → Arranged files b (files.map (standing files ceiling))) ∧
      ∀ file ∈ files, file.effectiveTokens ≤ max 1 ceiling →
        (standing files ceiling file ≠ [file] ↔
          BearsOversized files ceiling file.path ∧ file.tokenCount ≠ none ∧
            1 < (splitByBudget file.content (max 1 ceiling)).length) := by
  refine ⟨fun b => arranged_standing, fun file _ small => ?_⟩
  rw [standing_ne_iff, several_standing_iff]
  apply and_congr_right
  intro _
  constructor
  · intro several
    refine ⟨fun uncounted => ?_, several⟩
    rw [splitByBudget_of_small uncounted (by omega) small] at several
    exact Nat.lt_irrefl 1 several
  · exact And.right

/-- Files of one path: a long one that counts for little, one above the ceiling, and a short one. -/
def sharedPath : List PackFile :=
  [⟨"src/a.ts", "abcdefgh", some 1⟩, ⟨"src/a.ts", "x", some 5⟩, ⟨"src/a.ts", "y", none⟩]

theorem cut_of_small_iff_sharedPath :
    ∃ b, balance sharedPath 1 = .ok b ∧
      Arranged sharedPath b (sharedPath.map (standing sharedPath 1)) ∧
      standing sharedPath 1 ⟨"src/a.ts", "abcdefgh", some 1⟩ ≠ [⟨"src/a.ts", "abcdefgh", some 1⟩] ∧
      standing sharedPath 1 ⟨"src/a.ts", "y", none⟩ = [⟨"src/a.ts", "y", none⟩] := by
  obtain ⟨arranged, small⟩ := cut_of_small_iff sharedPath 1
  have bears : BearsOversized sharedPath 1 "src/a.ts" :=
    ⟨⟨"src/a.ts", "x", some 5⟩, by simp [sharedPath], rfl, by decide⟩
  obtain ⟨b, balanced⟩ : ∃ b, balance sharedPath 1 = .ok b :=
    exists_balance (by decide +kernel) (by decide +kernel)
  refine ⟨b, balanced, arranged b balanced, ?_, ?_⟩
  · exact (small _ (by simp [sharedPath]) (by decide)).mpr
      ⟨bears, Option.some_ne_none 1, by decide +kernel⟩
  · by_contra cut
    exact ((small _ (by simp [sharedPath]) (by decide +kernel)).mp cut).2.1 rfl

theorem small_file_cut :
    sharedPath.map (·.effectiveTokens) = [1, 5, 1] ∧
      (balance sharedPath 1).map (·.files) =
        .ok [⟨"src/a.part-1-of-2.ts", "abcd", none⟩, ⟨"src/a.part-2-of-2.ts", "efgh", none⟩,
          ⟨"src/a.ts", "x", some 5⟩, ⟨"src/a.ts", "y", none⟩] := by
  decide +kernel

end PromptPack.Budget
