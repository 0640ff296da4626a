import PromptPack.Budget.Forecast
import PromptPack.Proofs.Budget.PartCount
import PromptPack.Proofs.Budget.Standing
import PromptPack.Proofs.Numeric.Quotient
import PromptPack.Proofs.Table

/-! The forecast against what balancing does. It foretells from the token counts alone which files
are split: it names every file that is, and besides only those whose text is left whole because a
break closes it. Where there are no line breaks it foretells the numbers of parts too. Main
statements: `split_iff_forecast`, `forecast_of_unbroken`. -/

namespace PromptPack.Budget

variable {files : List PackFile} {ceiling : Int} {file : PackFile} {expected : PackFile → Int}

def expectations (files : List PackFile) (ceiling : Int) (expected : PackFile → Int) :
    Table String Int :=
  (files.filter (ceiling < ·.effectiveTokens)).map fun file => (file.path, expected file)

theorem expectations_cons (file : PackFile) (files : List PackFile) (ceiling : Int)
    (expected : PackFile → Int) :
    expectations (file :: files) ceiling expected =
      if ceiling < file.effectiveTokens then
        (file.path, expected file) :: expectations files ceiling expected
      else expectations files ceiling expected := by
  unfold expectations
  rw [List.filter_cons]
  split <;> simp_all

theorem forecast_eq (positive : 1 ≤ ceiling)
    (counted : ∀ file ∈ files, ceiling < file.effectiveTokens →
      partCount file.effectiveTokens ceiling = .ok (expected file)) :
    forecast files ceiling = .ok (Table.ofList (expectations files ceiling expected)) := by
  rw [forecast, if_neg (by omega), Table.ofList_eq]
  -- The induction is over the files that are left, from any counts collected before them.
  generalize ([] : Table String Int) = counts
  induction files generalizing counts with
  | nil => rfl
  | cons file files ih =>
    obtain ⟨here, there⟩ := List.forall_mem_cons.mp counted
    rw [List.foldlM_cons, expectations_cons]
    by_cases above : ceiling < file.effectiveTokens
    · rw [if_pos above, if_pos above, here above]
      exact ih there _
    · rw [if_neg above, if_neg above]
      exact ih there _

theorem partCount_isOk_iff {tokens : Int} (positive : 0 < ceiling) (nonneg : 0 ≤ tokens) :
    (∃ n, partCount tokens ceiling = .ok n) ↔ (tokens : ℚ) < Binary64.overflow * ceiling := by
  have size : |(ceiling : ℚ)| = ceiling := abs_of_pos (by exact_mod_cast positive)
  have count : |(tokens : ℚ)| = tokens := abs_of_nonneg (by exact_mod_cast nonneg)
  have divided := Binary64.isSome_quotient?_iff (n := tokens) positive.ne'
  rw [size, count] at divided
  rw [← divided, partCount]
  cases found : Binary64.quotient? tokens ceiling with
  | none => simp
  | some x =>
    obtain ⟨q, value⟩ := Binary64.exists_toRat?_of_quotient? found
    refine iff_of_true ⟨max 2 q.ceil, ?_⟩ rfl
    rw [Option.bind_some, Binary64.ceil?, value, Option.map_some]

theorem forecast_isOk_iff (files : List PackFile) (ceiling : Int) :
    (∃ counts, forecast files ceiling = .ok counts) ↔
      0 < ceiling → ∀ file ∈ files, ceiling < file.effectiveTokens →
        (file.effectiveTokens : ℚ) < Binary64.overflow * ceiling := by
  unfold forecast
  split
  · next low => exact iff_of_true ⟨_, rfl⟩ fun high => absurd low (by omega)
  · next high =>
    have positive : 0 < ceiling := by omega
    rw [forall_prop_of_true positive]
    apply foldlM_isOk_iff
    intro counts file
    by_cases above : ceiling < file.effectiveTokens
    · rw [if_pos above, forall_prop_of_true above, ← partCount_isOk_iff positive (by omega)]
      exact bind_isOk_iff fun _ => ⟨_, rfl⟩
    · rw [if_neg above]
      exact iff_of_true ⟨_, rfl⟩ fun past => absurd past above

theorem exists_forecast (positive : 1 ≤ ceiling)
    (counts : ∀ file ∈ files, ∀ count ∈ file.tokenCount, count < (10 ^ 300 : Nat))
    (lengths : ∀ file ∈ files, file.tokenCount = none → file.content.length < 10 ^ 300) :
    ∃ expected : PackFile → Int,
      (∀ file ∈ files, ceiling < file.effectiveTokens →
        partCount file.effectiveTokens ceiling = .ok (expected file)) ∧
      forecast files ceiling = .ok (Table.ofList (expectations files ceiling expected)) := by
  have range : (10 ^ 300 : Nat) < 2 ^ 1000 := by decide +kernel
  have counted : ∀ file, ∃ n, file ∈ files → ceiling < file.effectiveTokens →
      partCount file.effectiveTokens ceiling = .ok n := by
    intro file
    by_cases member : file ∈ files ∧ ceiling < file.effectiveTokens
    · have below := PackFile.effectiveTokens_lt (by decide +kernel) (counts file member.1)
        (lengths file member.1)
      generalize 10 ^ 300 = bound at range below
      have small : file.effectiveTokens.natAbs < 2 ^ 1000 := by omega
      have fits : (file.effectiveTokens : ℚ) < Binary64.overflow * ceiling := by
        have one : (1 : ℚ) ≤ ceiling := by exact_mod_cast positive
        calc (file.effectiveTokens : ℚ) ≤ |(file.effectiveTokens : ℚ)| := le_abs_self _
          _ < Binary64.overflow := Binary64.abs_lt_overflow small (Nat.le_refl 1000)
          _ ≤ Binary64.overflow * ceiling := le_mul_of_one_le_right Binary64.overflow_pos.le one
      obtain ⟨n, found⟩ := (partCount_isOk_iff (by omega) (by omega)).mpr fits
      exact ⟨n, fun _ _ => found⟩
    · exact ⟨0, fun listed above => absurd ⟨listed, above⟩ member⟩
  choose expected counted using counted
  exact ⟨expected, fun file => counted file, forecast_eq positive fun file => counted file⟩

theorem mem_keys_expectations (positive : 1 ≤ ceiling) {path : String} :
    path ∈ (Table.ofList (expectations files ceiling expected)).keys ↔
      BearsOversized files ceiling path := by
  rw [← Table.has_iff, Table.has_ofList]
  simp [expectations, BearsOversized, Int.max_eq_right positive, and_left_comm, and_comm]

theorem get?_expectations (member : file ∈ files)
    (unique : ∀ other ∈ files, other.path = file.path → other = file)
    (above : ceiling < file.effectiveTokens) :
    (Table.ofList (expectations files ceiling expected)).get? file.path = some (expected file) := by
  have listed : (file.path, expected file) ∈ expectations files ceiling expected :=
    List.mem_map.mpr ⟨file, List.mem_filter.mpr ⟨member, by simpa using above⟩, rfl⟩
  apply (Table.get?_ofList_eq_some_iff _).mpr listed
  have own : ∀ value, (file.path, value) ∈ expectations files ceiling expected →
      value = expected file := by
    intro value entry
    obtain ⟨other, kept, same⟩ := List.mem_map.mp entry
    obtain ⟨path, rfl⟩ := Prod.mk.inj same
    rw [unique other (List.mem_of_mem_filter kept) path]
  intro value other entry entry'
  rw [own value entry, own other entry']

/-! Files that are split. -/

theorem lt_effectiveTokens_iff (uncounted : file.tokenCount = none) (positive : 1 ≤ ceiling) :
    ceiling < file.effectiveTokens ↔ windowOf ceiling < file.content.length := by
  have fits : file.effectiveTokens ≤ ceiling ↔ file.content.length ≤ windowOf ceiling :=
    effectiveTokens_le_iff uncounted (by omega)
  omega

theorem several_standing_iff_of_uncounted (member : file ∈ files)
    (unique : ∀ other ∈ files, other.path = file.path → other = file)
    (uncounted : file.tokenCount = none) (positive : 1 ≤ ceiling) :
    1 < (standing files ceiling file).length ↔
      windowOf ceiling < file.content.length ∧
        ¬ ClosedByBreak (windowOf ceiling) (minBreakOffset (windowOf ceiling))
          file.content.toList := by
  rw [several_standing_iff, bearsOversized_iff member unique, Int.max_eq_right positive,
    lt_effectiveTokens_iff uncounted positive, several_splitByBudget_iff positive]
  exact ⟨And.right, fun split => ⟨split.1, split⟩⟩

/-- Over distinct paths and estimated counts the forecast names the files whose text is longer than
its window. Those are the files that are split, but for the ones whose text is a single part as it
overruns its window only by the break that closes it. -/
theorem split_iff_forecast (positive : 1 ≤ ceiling) (distinct : (files.map (·.path)).Nodup)
    (uncounted : ∀ file ∈ files, file.tokenCount = none)
    (lengths : ∀ file ∈ files, file.content.length < 10 ^ 300) :
    ∃ counts b, forecast files ceiling = .ok counts ∧ balance files ceiling = .ok b ∧
      Arranged files b (files.map (standing files ceiling)) ∧
      (∀ path, path ∈ counts.keys ↔
        ∃ file ∈ files, file.path = path ∧ windowOf ceiling < file.content.length) ∧
      ∀ file ∈ files, 1 < (standing files ceiling file).length ↔
        file.path ∈ counts.keys ∧
          ¬ ClosedByBreak (windowOf ceiling) (minBreakOffset (windowOf ceiling))
            file.content.toList := by
  have counts : ∀ file ∈ files, ∀ count ∈ file.tokenCount, count < (10 ^ 300 : Nat) := by
    intro file member count known
    rw [uncounted file member] at known
    cases known
  have lengths : ∀ file ∈ files, file.tokenCount = none → file.content.length < 10 ^ 300 :=
    fun file member _ => lengths file member
  have unique : ∀ file ∈ files, ∀ other ∈ files, other.path = file.path → other = file :=
    fun file member other listed same => List.inj_on_of_nodup_map distinct listed member same
  obtain ⟨expected, _, foretold⟩ := exists_forecast positive counts lengths
  obtain ⟨b, balanced⟩ : ∃ b, balance files ceiling = .ok b := exists_balance counts lengths
  refine ⟨_, b, foretold, balanced, arranged_standing balanced, fun path => ?_,
    fun file member => ?_⟩
  · rw [mem_keys_expectations positive, BearsOversized, Int.max_eq_right positive]
    apply exists_congr
    intro file
    apply and_congr_right
    intro member
    rw [lt_effectiveTokens_iff (uncounted file member) positive]
  · rw [mem_keys_expectations positive, bearsOversized_iff member (unique file member),
      Int.max_eq_right positive, lt_effectiveTokens_iff (uncounted file member) positive]
    exact several_standing_iff_of_uncounted member (unique file member) (uncounted file member)
      positive

/-- A blank line closes the first text one character behind its window, the second has none, and
the third fits. -/
def closedNote : List PackFile :=
  [⟨"note.md", "aaa\n\n", none⟩, ⟨"log.md", "abcdefgh", none⟩, ⟨"tag.md", "abc", none⟩]

theorem split_iff_forecast_closedNote :
    (closedNote.map (·.path)).Nodup ∧ (∀ file ∈ closedNote, file.tokenCount = none) ∧
      (∀ file ∈ closedNote, file.content.length < 10 ^ 300) ∧
      ∃ counts b, forecast closedNote 1 = .ok counts ∧ balance closedNote 1 = .ok b ∧
        Arranged closedNote b (closedNote.map (standing closedNote 1)) ∧
        "note.md" ∈ counts.keys ∧
        ¬ 1 < (standing closedNote 1 ⟨"note.md", "aaa\n\n", none⟩).length ∧
        "log.md" ∈ counts.keys ∧ 1 < (standing closedNote 1 ⟨"log.md", "abcdefgh", none⟩).length ∧
        "tag.md" ∉ counts.keys := by
  have distinct : (closedNote.map (·.path)).Nodup := by decide +kernel
  have uncounted : ∀ file ∈ closedNote, file.tokenCount = none := by decide +kernel
  have lengths : ∀ file ∈ closedNote, file.content.length < 10 ^ 300 := by decide +kernel
  obtain ⟨counts, b, foretold, balanced, arranged, named, split⟩ :=
    split_iff_forecast (by decide : (1 : Int) ≤ 1) distinct uncounted lengths
  have note : "note.md" ∈ counts.keys :=
    (named "note.md").mpr ⟨_, List.mem_cons_self, rfl, by decide +kernel⟩
  have closed : ClosedByBreak (windowOf 1) (minBreakOffset (windowOf 1)) "aaa\n\n".toList :=
    .paragraph (by decide +kernel) ⟨"aaa".toList, by decide +kernel⟩
  have several : 1 < (standing closedNote 1 ⟨"log.md", "abcdefgh", none⟩).length := by
    decide +kernel
  refine ⟨distinct, uncounted, lengths, counts, b, foretold, balanced, arranged, note, ?_, ?_,
    several, ?_⟩
  · exact fun cut => ((split _ (by simp [closedNote])).mp cut).2 closed
  · exact ((split _ (by simp [closedNote])).mp several).1
  · intro listed
    obtain ⟨file, member, same, long⟩ := (named "tag.md").mp listed
    revert file
    decide +kernel

theorem forecast_names_whole :
    (closedNote.map (·.path)).Nodup ∧ (∀ file ∈ closedNote, file.tokenCount = none) ∧
      forecast closedNote 1 = .ok [("note.md", 2), ("log.md", 2)] ∧
      (balance closedNote 1).map (·.files) =
        .ok [⟨"note.md", "aaa\n\n", none⟩, ⟨"log.part-1-of-2.md", "abcd", none⟩,
          ⟨"log.part-2-of-2.md", "efgh", none⟩, ⟨"tag.md", "abc", none⟩] := by
  decide +kernel

/-! Numbers of parts. -/

theorem partCount_eq {tokens limit : Nat} (small : tokens < 2 ^ 53) (positive : 0 < limit)
    (above : limit < tokens) :
    partCount tokens limit = .ok (((tokens + (limit - 1)) / limit : Nat) : Int) := by
  have several : 2 ≤ (tokens + (limit - 1)) / limit := by
    rw [Nat.le_div_iff_mul_le positive]
    omega
  rw [partCount, Binary64.ceil?_quotient? small positive above.le]
  dsimp only
  rw [max_eq_right (by omega)]

/-- Tokens rounded up and parts rounded up are windows rounded up. -/
theorem windows_eq (length limit : Nat) (positive : 0 < limit) :
    ((length + (charsPerToken - 1)) / charsPerToken + (limit - 1)) / limit =
      (length + (limit * charsPerToken - 1)) / (limit * charsPerToken) := by
  rw [Nat.mul_comm limit, ← Nat.div_div_eq_div_mul]
  congr 1
  unfold charsPerToken
  omega

theorem partCount_of_unbroken (positive : 1 ≤ ceiling) (uncounted : file.tokenCount = none)
    (unbroken : '\n' ∉ file.content.toList) (short : file.content.length < 2 ^ 50)
    (above : ceiling < file.effectiveTokens) :
    partCount file.effectiveTokens ceiling =
      .ok (splitByBudget file.content ceiling).length := by
  have long := (lt_effectiveTokens_iff uncounted positive).mp above
  obtain ⟨limit, rfl⟩ := Int.eq_ofNat_of_zero_le (show 0 ≤ ceiling by omega)
  have tokens : file.effectiveTokens = (charEstimate file.content : Nat) := by
    rw [PackFile.effectiveTokens, uncounted, ← estimateTokens_eq]
  have small : charEstimate file.content < 2 ^ 53 := by
    unfold charEstimate charsPerToken
    omega
  rw [tokens] at above ⊢
  rw [partCount_eq small (by omega) (by omega),
    length_splitByBudget_of_unbroken positive long unbroken, charEstimate,
    windows_eq _ _ (by omega), windowOf, Int.toNat_natCast]

/-- In any list, a file whose count is estimated, whose path is its own, and whose text has no line
breaks and fewer than `2 ^ 50` characters is named by the forecast exactly if it is split, and then
with the number of its parts. The bounds are about the other files: they keep their counts where a
double can hold them. -/
theorem forecast_of_unbroken (positive : 1 ≤ ceiling)
    (counts : ∀ file ∈ files, ∀ count ∈ file.tokenCount, count < (10 ^ 300 : Nat))
    (lengths : ∀ file ∈ files, file.tokenCount = none → file.content.length < 10 ^ 300) :
    ∃ table b, forecast files ceiling = .ok table ∧ balance files ceiling = .ok b ∧
      Arranged files b (files.map (standing files ceiling)) ∧
      ∀ file ∈ files, (∀ other ∈ files, other.path = file.path → other = file) →
        file.tokenCount = none → '\n' ∉ file.content.toList → file.content.length < 2 ^ 50 →
        (file.path ∈ table.keys ↔ 1 < (standing files ceiling file).length) ∧
        (1 < (standing files ceiling file).length →
          table.get? file.path = some ((standing files ceiling file).length : Int)) := by
  obtain ⟨expected, counted, foretold⟩ := exists_forecast positive counts lengths
  obtain ⟨b, balanced⟩ : ∃ b, balance files ceiling = .ok b := exists_balance counts lengths
  refine ⟨_, b, foretold, balanced, arranged_standing balanced, ?_⟩
  intro file member unique uncounted unbroken short
  have split := several_standing_iff_of_uncounted member unique uncounted positive
  rw [and_iff_left (not_closedByBreak_of_unbroken unbroken)] at split
  have named : file.path ∈ (Table.ofList (expectations files ceiling expected)).keys ↔ _ :=
    mem_keys_expectations positive
  rw [bearsOversized_iff member unique, Int.max_eq_right positive,
    lt_effectiveTokens_iff uncounted positive, ← split] at named
  refine ⟨named, fun several => ?_⟩
  have above := (lt_effectiveTokens_iff uncounted positive).mpr (split.mp several)
  have number := (counted file member above).symm.trans
    (partCount_of_unbroken positive uncounted unbroken short above)
  rw [get?_expectations member unique above, Except.ok.inj number, length_standing several,
    Int.max_eq_right positive]

/-- One character more than two windows, and a file whose count is given. -/
def unbrokenFiles : List PackFile :=
  [⟨"a.min.js", "abcdefghijklmnopq", none⟩, ⟨"b.js", "tiny", some 999⟩]

theorem forecast_of_unbroken_overByOne :
    (∀ file ∈ unbrokenFiles, ∀ count ∈ file.tokenCount, count < (10 ^ 300 : Nat)) ∧
      (∀ file ∈ unbrokenFiles, file.tokenCount = none → file.content.length < 10 ^ 300) ∧
      ∃ table b, forecast unbrokenFiles 2 = .ok table ∧ balance unbrokenFiles 2 = .ok b ∧
        (standing unbrokenFiles 2 ⟨"a.min.js", "abcdefghijklmnopq", none⟩).length = 3 ∧
        table.get? "a.min.js" = some 3 := by
  have counts : ∀ file ∈ unbrokenFiles, ∀ count ∈ file.tokenCount, count < (10 ^ 300 : Nat) := by
    decide +kernel
  have lengths : ∀ file ∈ unbrokenFiles,
      file.tokenCount = none → file.content.length < 10 ^ 300 := by decide +kernel
  obtain ⟨table, b, foretold, balanced, _, numbered⟩ :=
    forecast_of_unbroken (by decide : (1 : Int) ≤ 2) counts lengths
  have parts : (standing unbrokenFiles 2 ⟨"a.min.js", "abcdefghijklmnopq", none⟩).length = 3 := by
    decide +kernel
  have number := (numbered _ List.mem_cons_self (by decide +kernel) rfl (by decide +kernel)
    (by decide +kernel)).2 (by rw [parts]; decide)
  rw [parts] at number
  exact ⟨counts, lengths, table, b, foretold, balanced, parts, number⟩

end PromptPack.Budget
