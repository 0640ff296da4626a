import PromptPack.Budget.Oversized
import PromptPack.Proofs.Budget.Ceiling
import PromptPack.Proofs.Numeric.IntegerText

/-! When the warning can be written. It shows counts: the large ones divided by a million, where a
quotient past the doubles has no text, and the small ones in full, where the digits of a negative one
may be too many. Main statement: `oversizedWarning_isOk_iff`. -/

namespace PromptPack.Budget

variable {n ceiling : Int} {files : List PackFile} {oversized : List OversizedFile}
  {warning : Option String}

/-- The first count that is too large to be shown in millions. -/
def showable : ℚ := Binary64.overflow * 10 ^ 6

def HasText (n : Int) : Prop := -((10 ^ IntegerText.maxDigits : Nat) : Int) < n ∧ (n : ℚ) < showable

theorem inUnits_isOk_iff {unit : Int} (positive : 0 < unit) (mark : String) :
    (∃ text, inUnits (.int n) unit mark = .ok text) ↔ |(n : ℚ)| < Binary64.overflow * unit := by
  have size : |(unit : ℚ)| = unit := abs_of_pos (by exact_mod_cast positive)
  have found := Binary64.isSome_quotient?_iff (n := n) positive.ne'
  rw [size] at found
  rw [← found, inUnits, Number.quotient?]
  cases Binary64.quotient? n unit <;> simp

theorem million_le_overflow : 10 ^ 6 ≤ Binary64.overflow := by
  calc (10 ^ 6 : ℚ) ≤ 2 ^ (20 : Int) := by norm_num
    _ ≤ 2 ^ (1023 : Int) := zpow_le_zpow_right₀ one_le_two (by decide)
    _ ≤ Binary64.overflow := Binary64.le_overflow

theorem tokenText_isOk_iff : (∃ text, tokenText (.int n) = .ok text) ↔ HasText n := by
  have large := million_le_overflow
  have long : 10 ^ 3 ≤ 10 ^ IntegerText.maxDigits :=
    Nat.pow_le_pow_right (by decide) (by decide)
  unfold tokenText HasText showable
  rw [Number.le_int, Number.le_int]
  generalize digits : 10 ^ IntegerText.maxDigits = limit at long
  split
  · next millions =>
    have millions : 1000000 ≤ n := of_decide_eq_true millions
    have positive : (0 : ℚ) ≤ n := by exact_mod_cast (by omega : 0 ≤ n)
    rw [inUnits_isOk_iff (by decide), abs_of_nonneg positive, and_iff_right (by omega)]
    norm_num
  · next less =>
    have less : (n : ℚ) < 10 ^ 6 := by
      have less : ¬ 1000000 ≤ n := by simpa using less
      exact_mod_cast (by omega : n < 1000000)
    rw [and_iff_left (by linarith)]
    split
    · next thousands =>
      have thousands : 1000 ≤ n := of_decide_eq_true thousands
      have positive : (0 : ℚ) ≤ n := by exact_mod_cast (by omega : 0 ≤ n)
      rw [inUnits_isOk_iff (by decide), abs_of_nonneg positive]
      refine iff_of_true ?_ (by omega)
      push_cast
      linarith
    · next hundreds =>
      have hundreds : ¬ 1000 ≤ n := by simpa using hundreds
      simp only [wholeTokens, bind, Except.bind, IntegerText.write_isOk_iff, digits]
      omega

theorem exampleText_isOk_iff {file : OversizedFile} :
    (∃ text, exampleText file = .ok text) ↔ HasText file.tokenCount := by
  rw [← tokenText_isOk_iff]
  exact bind_isOk_iff fun _ => ⟨_, rfl⟩

theorem hasText_iff_of_pos (positive : 0 < n) : HasText n ↔ (n : ℚ) < showable :=
  and_iff_right ((neg_nonpos.mpr (Int.natCast_nonneg _)).trans_lt positive)

theorem lt_of_mem_findOversized {file : OversizedFile} (member : file ∈ findOversized files ceiling) :
    0 < ceiling ∧ ceiling < file.tokenCount := by
  unfold findOversized at member
  split at member
  · cases member
  · next positive =>
    obtain ⟨source, kept, rfl⟩ := List.mem_map.mp member
    exact ⟨not_le.mp positive, of_decide_eq_true (List.mem_filter.mp kept).2⟩

theorem oversizedWarning_isOk_iff (oversized : List OversizedFile) (ceiling : Int) :
    (∃ warning, oversizedWarning oversized ceiling = .ok warning) ↔
      oversized ≠ [] → (∀ file ∈ oversized.take maxExamples, HasText file.tokenCount) ∧
        HasText ceiling := by
  unfold oversizedWarning
  cases oversized with
  | nil => exact iff_of_true ⟨_, rfl⟩ nofun
  | cons first others =>
    have named : (∃ texts, ((first :: others).take maxExamples).mapM exampleText = .ok texts) ↔
        ∀ file ∈ (first :: others).take maxExamples, HasText file.tokenCount := by
      rw [mapM_isOk_iff]
      exact forall₂_congr fun _ _ => exampleText_isOk_iff
    rw [if_neg (by simp), forall_prop_of_true (List.cons_ne_nil first others), ← named,
      ← tokenText_isOk_iff]
    constructor
    · rintro ⟨warning, result⟩
      obtain ⟨texts, made, result⟩ := bind_eq_ok.mp result
      obtain ⟨limit, written, _⟩ := bind_eq_ok.mp result
      exact ⟨⟨texts, made⟩, limit, written⟩
    · rintro ⟨⟨texts, made⟩, limit, written⟩
      exact ⟨_, bind_eq_ok.mpr ⟨texts, made, bind_eq_ok.mpr ⟨limit, written, rfl⟩⟩⟩

/-- The files that the warning names decide, as the ceiling is below each of their counts. -/
theorem oversizedWarning_findOversized_isOk_iff (files : List PackFile) (ceiling : Int) :
    (∃ warning, oversizedWarning (findOversized files ceiling) ceiling = .ok warning) ↔
      ∀ file ∈ (findOversized files ceiling).take maxExamples,
        (file.tokenCount : ℚ) < showable := by
  have counted : ∀ file ∈ findOversized files ceiling, HasText file.tokenCount ↔
      (file.tokenCount : ℚ) < showable := fun file member =>
    have ⟨positive, above⟩ := lt_of_mem_findOversized member
    hasText_iff_of_pos (positive.trans above)
  rw [oversizedWarning_isOk_iff]
  constructor
  · intro shown file member
    have isOver := List.mem_of_mem_take member
    exact (counted file isOver).mp ((shown (List.ne_nil_of_mem isOver)).1 file member)
  · intro shown some
    refine ⟨fun file member => (counted file (List.mem_of_mem_take member)).mpr (shown file member), ?_⟩
    obtain ⟨first, others, split⟩ := List.exists_cons_of_ne_nil some
    have member : first ∈ findOversized files ceiling := by
      rw [split]
      exact List.mem_cons_self
    have named : (first.tokenCount : ℚ) < showable := by
      apply shown
      rw [split]
      exact List.mem_cons_self
    obtain ⟨positive, above⟩ := lt_of_mem_findOversized member
    exact (hasText_iff_of_pos positive).mpr (lt_trans (by exact_mod_cast above) named)

theorem exists_text_of_oversizedWarning (nonempty : oversized ≠ [])
    (made : oversizedWarning oversized ceiling = .ok warning) : ∃ text, warning = some text := by
  rw [oversizedWarning, if_neg (by simpa using nonempty)] at made
  obtain ⟨texts, _, made⟩ := bind_eq_ok.mp made
  obtain ⟨limit, _, made⟩ := bind_eq_ok.mp made
  cases made
  exact ⟨_, rfl⟩

end PromptPack.Budget
