import Mathlib.Algebra.Group.Int.Defs
import Mathlib.Data.List.Forall2
import PromptPack.Budget.Balance
import PromptPack.Proofs.Budget.Split
import PromptPack.Proofs.Budget.Warning

/-! Balancing a list of files. Each file keeps its place: there stands the file itself, or there
stand its parts. The counters count these blocks, and the report names the files above the ceiling. -/

namespace PromptPack

theorem Budget.estimateTokens_le (content : String) :
    Budget.estimateTokens content ≤ content.length := by
  rw [estimateTokens_eq, charEstimate, charsPerToken]
  omega

theorem PackFile.effectiveTokens_lt {file : PackFile} {bound : Nat} (positive : 0 < bound)
    (count : ∀ count ∈ file.tokenCount, count < bound)
    (length : file.tokenCount = none → file.content.length < bound) :
    file.effectiveTokens < bound := by
  unfold effectiveTokens
  split
  · next given known =>
    have below := count given known
    omega
  · next unknown =>
    have estimate := Budget.estimateTokens_le file.content
    have length := length unknown
    omega

structure IsParts (file : PackFile) (parts : List PackFile) : Prop where
  several : 1 < parts.length
  paths : parts.map (·.path) =
    (List.range parts.length).map fun i : Nat => Budget.partPath file.path i parts.length
  nonempty : ∀ part ∈ parts, part.content ≠ ""
  uncounted : ∀ part ∈ parts, part.tokenCount = none
  joined : String.join (parts.map (·.content)) = file.content

/-- What may stand in the place of a file. Only a file that bears an oversized path is cut, and it
is left whole only if its text makes a single part. -/
inductive StandsFor (oversized : List String) (ceiling : Int) (file : PackFile) :
    List PackFile → Prop where
  | whole (single : file.path ∈ oversized →
      (Budget.splitByBudget file.content ceiling).length = 1) :
    StandsFor oversized ceiling file [file]
  | parts {parts : List PackFile} (bears : file.path ∈ oversized) (cut : IsParts file parts) :
    StandsFor oversized ceiling file parts

structure Arranged (files : List PackFile) (b : Balance) (blocks : List (List PackFile)) :
    Prop where
  stand : List.Forall₂ (StandsFor (b.oversized.map (·.path)) b.ceiling) files blocks
  files : b.files = blocks.flatten
  splitFileCount : b.splitFileCount = (blocks.filter (1 < ·.length)).length
  generatedPartCount : b.generatedPartCount = (blocks.filter (1 < ·.length)).flatten.length

structure Balance.Replaces (b : Balance) (files : List PackFile) (ceiling : Int) : Prop where
  limit : b.ceiling = max 1 ceiling
  oversized : b.oversized =
    (files.filter fun file => max 1 ceiling < file.effectiveTokens).map fun file =>
      ⟨file.path, file.effectiveTokens⟩
  blocks : ∃ blocks, Arranged files b blocks
  warnings : b.warnings.length =
    if b.oversized = [] then 0 else if 0 < b.splitFileCount then 2 else 1

namespace Budget

section

variable {oversized : List String} {ceiling : Int} {file : PackFile} {parts : List String}

theorem map_path_partFiles (file : PackFile) (parts : List String) :
    (partFiles file parts).map (·.path) =
      (List.range parts.length).map fun i : Nat => partPath file.path i parts.length := by
  have firsts : ((List.range parts.length).zip parts).map Prod.fst = List.range parts.length :=
    List.map_fst_zip (Nat.le_of_eq List.length_range)
  unfold partFiles
  rw [List.map_map]
  conv => rhs; rw [← firsts, List.map_map]
  rfl

theorem map_content_partFiles (file : PackFile) (parts : List String) :
    (partFiles file parts).map (·.content) = parts := by
  have seconds : ((List.range parts.length).zip parts).map Prod.snd = parts :=
    List.map_snd_zip (Nat.le_of_eq List.length_range.symm)
  unfold partFiles
  rw [List.map_map]
  exact seconds

theorem length_partFiles : (partFiles file parts).length = parts.length := by
  have lengths := congrArg List.length (map_content_partFiles file parts)
  rw [List.length_map] at lengths
  exact lengths

theorem isParts_partFiles (several : 1 < (splitByBudget file.content ceiling).length) :
    IsParts file (partFiles file (splitByBudget file.content ceiling)) where
  several := by
    rw [length_partFiles]
    exact several
  paths := by
    rw [length_partFiles]
    exact map_path_partFiles file _
  nonempty := by
    intro part member
    have listed := List.mem_map_of_mem (f := PackFile.content) member
    rw [map_content_partFiles] at listed
    exact ne_empty_of_mem_splitByBudget several listed
  uncounted := by
    intro part member
    obtain ⟨_, _, rfl⟩ := List.mem_map.mp member
    rfl
  joined := by
    rw [map_content_partFiles, join_splitByBudget]

theorem standsFor_block : StandsFor oversized ceiling file (block oversized ceiling file) := by
  unfold block
  split
  · next bears =>
    have bears : file.path ∈ oversized := by simpa using bears
    dsimp only
    split
    · next few =>
      have some := List.length_pos_iff.mpr (splitByBudget_ne_nil file.content ceiling)
      exact .whole fun _ => by omega
    · next several => exact .parts bears (isParts_partFiles (Nat.lt_of_not_le several))
  · next other =>
    exact .whole fun bears => absurd (by simpa using bears) other

theorem forall₂_block (files : List PackFile) :
    List.Forall₂ (StandsFor oversized ceiling) files (files.map (block oversized ceiling)) := by
  induction files with
  | nil => exact .nil
  | cons file files ih => exact .cons standsFor_block ih

theorem block_nil : block [] ceiling file = [file] := rfl

end

/-! When a list of files is balanced at all. -/

theorem findOversized_eq (files : List PackFile) {ceiling : Int} (positive : 0 < ceiling) :
    findOversized files ceiling =
      (files.filter fun file => ceiling < file.effectiveTokens).map fun file =>
        ⟨file.path, file.effectiveTokens⟩ := by
  unfold findOversized
  rw [if_neg (by omega)]

theorem flatten_blocks_nil (files : List PackFile) (ceiling : Int) :
    (files.map (block [] ceiling)).flatten = files ∧
      (files.map (block [] ceiling)).filter (1 < ·.length) = [] := by
  induction files with
  | nil => exact ⟨rfl, rfl⟩
  | cons file files ih =>
    obtain ⟨same, none⟩ := ih
    rw [List.map_cons, block_nil]
    exact ⟨congrArg (file :: ·) same, none⟩

theorem length_splitNotice (splitFileCount partCount : Nat) :
    (splitNotice splitFileCount partCount).length = if 0 < splitFileCount then 1 else 0 := by
  unfold splitNotice
  split <;> rfl

theorem balance_of_nil {files : List PackFile} {ceiling : Int}
    (none : findOversized files (max 1 ceiling) = []) :
    balance files ceiling = .ok { files, ceiling := max 1 ceiling } := by
  unfold balance
  dsimp only
  rw [none, if_pos List.isEmpty_nil]

theorem balance_of_warning {files : List PackFile} {ceiling : Int} {text : String}
    (some : findOversized files (max 1 ceiling) ≠ [])
    (warned : oversizedWarning (findOversized files (max 1 ceiling)) (max 1 ceiling) =
      .ok (.some text)) :
    let oversized := findOversized files (max 1 ceiling)
    let blocks := files.map (block (oversized.map (·.path)) (max 1 ceiling))
    let split := blocks.filter (1 < ·.length)
    balance files ceiling = .ok {
      files := blocks.flatten
      oversized
      warnings := text :: splitNotice split.length split.flatten.length
      ceiling := max 1 ceiling
      splitFileCount := split.length
      generatedPartCount := split.flatten.length } := by
  dsimp only
  unfold balance
  dsimp only
  rw [if_neg (by simpa using some), warned]
  rfl

theorem ceiling_of_balance {files : List PackFile} {ceiling : Int} {b : Balance}
    (balanced : balance files ceiling = .ok b) : b.ceiling = max 1 ceiling := by
  unfold balance at balanced
  dsimp only at balanced
  split at balanced
  · cases balanced
    rfl
  · obtain ⟨_, _, balanced⟩ := bind_eq_ok.mp balanced
    cases balanced
    rfl

theorem balance_isOk_iff (files : List PackFile) (ceiling : Int) :
    (∃ b, balance files ceiling = .ok b) ↔
      ∀ file ∈ (findOversized files (max 1 ceiling)).take maxExamples,
        (file.tokenCount : ℚ) < showable := by
  rw [← oversizedWarning_findOversized_isOk_iff]
  unfold balance
  dsimp only
  split
  · next none =>
    rw [oversizedWarning, if_pos none]
    exact iff_of_true ⟨_, rfl⟩ ⟨_, rfl⟩
  · exact bind_isOk_iff fun _ => ⟨_, rfl⟩

theorem lt_showable {files : List PackFile} {ceiling : Int} {file : OversizedFile}
    (counts : ∀ file ∈ files, ∀ count ∈ file.tokenCount, count < (10 ^ 300 : Nat))
    (lengths : ∀ file ∈ files, file.tokenCount = none → file.content.length < 10 ^ 300)
    (member : file ∈ findOversized files (max 1 ceiling)) : (file.tokenCount : ℚ) < showable := by
  have range : (10 ^ 300 : Nat) < 2 ^ 1000 := by decide +kernel
  have above := (lt_of_mem_findOversized member).2
  have below : file.tokenCount < (10 ^ 300 : Nat) := by
    rw [findOversized_eq files (by omega)] at member
    obtain ⟨source, kept, rfl⟩ := List.mem_map.mp member
    have present := List.mem_of_mem_filter kept
    exact PackFile.effectiveTokens_lt (by decide +kernel) (counts source present)
      (lengths source present)
  generalize 10 ^ 300 = bound at range below
  have small : file.tokenCount.natAbs < 2 ^ 1000 := by omega
  calc (file.tokenCount : ℚ) ≤ |(file.tokenCount : ℚ)| := le_abs_self _
    _ < Binary64.overflow := Binary64.abs_lt_overflow small (Nat.le_refl 1000)
    _ ≤ showable := le_mul_of_one_le_right Binary64.overflow_pos.le (by norm_num)

theorem exists_warning {files : List PackFile} {ceiling : Int}
    (counts : ∀ file ∈ files, ∀ count ∈ file.tokenCount, count < (10 ^ 300 : Nat))
    (lengths : ∀ file ∈ files, file.tokenCount = none → file.content.length < 10 ^ 300)
    (some : findOversized files (max 1 ceiling) ≠ []) :
    ∃ text, oversizedWarning (findOversized files (max 1 ceiling)) (max 1 ceiling) =
      .ok (.some text) := by
  obtain ⟨warning, made⟩ := (oversizedWarning_findOversized_isOk_iff files (max 1 ceiling)).mpr
    fun file member => lt_showable counts lengths (List.mem_of_mem_take member)
  obtain ⟨text, rfl⟩ := exists_text_of_oversizedWarning some made
  exact ⟨text, made⟩

theorem exists_balance {files : List PackFile} {ceiling : Int}
    (counts : ∀ file ∈ files, ∀ count ∈ file.tokenCount, count < (10 ^ 300 : Nat))
    (lengths : ∀ file ∈ files, file.tokenCount = none → file.content.length < 10 ^ 300) :
    ∃ b, balance files ceiling = .ok b :=
  (balance_isOk_iff files ceiling).mpr fun _ member =>
    lt_showable counts lengths (List.mem_of_mem_take member)

/-- Every list of files is balanced. The bounds keep the counts, given or estimated, where a double
can show them; a text past the second one fits into no memory. -/
theorem balance_replaces (files : List PackFile) (ceiling : Int)
    (counts : ∀ file ∈ files, ∀ count ∈ file.tokenCount, count < (10 ^ 300 : Nat))
    (lengths : ∀ file ∈ files, file.tokenCount = none → file.content.length < 10 ^ 300) :
    ∃ b, balance files ceiling = .ok b ∧ b.Replaces files ceiling := by
  have positive : 0 < max 1 ceiling := by omega
  have listed := findOversized_eq files positive
  by_cases none : findOversized files (max 1 ceiling) = []
  · obtain ⟨same, uncut⟩ := flatten_blocks_nil files (max 1 ceiling)
    refine ⟨_, balance_of_nil none, rfl, none ▸ listed, ?_, rfl⟩
    refine ⟨files.map (block [] (max 1 ceiling)), forall₂_block files, same.symm, ?_, ?_⟩
    · rw [uncut, List.length_nil]
    · rw [uncut, List.flatten_nil, List.length_nil]
  · obtain ⟨text, warned⟩ := exists_warning counts lengths none
    refine ⟨_, balance_of_warning none warned, rfl, listed, ?_, ?_⟩
    · exact ⟨_, forall₂_block files, rfl, rfl, rfl⟩
    · rw [if_neg none, List.length_cons, length_splitNotice]
      split <;> rfl

def mixedFiles : List PackFile :=
  [⟨"src/big.ts", "one\n\ntwo\nfour", none⟩, ⟨"src/big.ts", "x", none⟩,
    ⟨"weird.ts", "tiny", some 999⟩, ⟨"small.ts", "ok", some (-1)⟩]

theorem balance_replaces_mixedFiles :
    (∀ file ∈ mixedFiles, ∀ count ∈ file.tokenCount, count < (10 ^ 300 : Nat)) ∧
      (∀ file ∈ mixedFiles, file.tokenCount = none → file.content.length < 10 ^ 300) ∧
      ∃ b, balance mixedFiles 0 = .ok b ∧ b.Replaces mixedFiles 0 ∧
        b.files.map (·.path) =
          ["src/big.part-1-of-3.ts", "src/big.part-2-of-3.ts", "src/big.part-3-of-3.ts",
            "src/big.ts", "weird.ts", "small.ts"] := by
  have counts : ∀ file ∈ mixedFiles, ∀ count ∈ file.tokenCount, count < (10 ^ 300 : Nat) := by
    decide +kernel
  have lengths : ∀ file ∈ mixedFiles, file.tokenCount = none → file.content.length < 10 ^ 300 := by
    decide +kernel
  obtain ⟨b, balanced, arranged⟩ := balance_replaces mixedFiles 0 counts lengths
  have paths : (balance mixedFiles 0).map (fun b => b.files.map (·.path)) =
      .ok ["src/big.part-1-of-3.ts", "src/big.part-2-of-3.ts", "src/big.part-3-of-3.ts",
        "src/big.ts", "weird.ts", "small.ts"] := by
    decide +kernel
  rw [balanced] at paths
  exact ⟨counts, lengths, b, balanced, arranged, Except.ok.inj paths⟩

end Budget

end PromptPack
