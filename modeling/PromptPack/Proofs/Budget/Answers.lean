import PromptPack.Proofs.Budget.Ceiling
import PromptPack.Proofs.Budget.Ends
import PromptPack.Proofs.Budget.Forecast

/-! When the operations of the pack strategy return a value. They convert integers to doubles and
doubles to integers, so each of them has a range: past it lie the numbers that are not finite and the
integers, counts and quotients that no double can hold. Inside it a degenerate argument stands for
nothing or for the nearest one that makes sense. Main statement: `strategy_answers_iff`. -/

namespace PromptPack

namespace Number

/-- A number that becomes a double, be it an infinity or no number. -/
def Converts : Number → Prop
  | .int n => |(n : ℚ)| < Binary64.overflow
  | .float _ => True

/-- Integers are divided exactly, so only their quotient has to fit. -/
def Divides : Number → Number → Prop
  | .int n, .int d => |(n : ℚ)| < Binary64.overflow * |(d : ℚ)|
  | a, b => a.Converts ∧ b.Converts

variable {a b : Number}

theorem isSome_toBinary64?_iff : a.toBinary64?.isSome ↔ a.Converts := by
  cases a with
  | int n => exact Binary64.isSome_ofInt?_iff
  | float x => exact iff_of_true rfl trivial

theorem isSome_quotient?_iff (nonzero : b ≠ .int 0) : (a.quotient? b).isSome ↔ a.Divides b := by
  have converted :
      (do return (← a.toBinary64?).div (← b.toBinary64?) : Option Binary64).isSome ↔
        a.Converts ∧ b.Converts := by
    rw [← isSome_toBinary64?_iff, ← isSome_toBinary64?_iff]
    cases a.toBinary64? <;> cases b.toBinary64? <;> simp
  cases a with
  | int n =>
    cases b with
    | int d =>
      have nonzero : d ≠ 0 := by
        rintro rfl
        exact nonzero rfl
      exact Binary64.isSome_quotient?_iff nonzero
    | float y => exact converted
  | float x => exact converted

end Number

namespace Budget

variable {window : Number} {configured : Option Number} {ceiling : Int}

def ceilingSource (configured : Option Number) (window : Number) : Number :=
  match configured with
  | none => window
  | some wanted => if wanted.le (.int 0) then window else wanted

theorem resolveCeiling_isOk_iff_source (encoded : window.Encoded)
    (given : ∀ wanted ∈ configured, wanted.Encoded) :
    (∃ ceiling, resolveCeiling configured window = .ok ceiling) ↔
      (ceilingSource configured window).Finite := by
  cases configured with
  | none => exact deriveCeiling_isOk_iff encoded
  | some wanted =>
    unfold ceilingSource
    dsimp only
    cases sign : wanted.le (.int 0) with
    | true =>
      rw [resolveCeiling_of_le sign, if_pos rfl]
      exact deriveCeiling_isOk_iff encoded
    | false =>
      rw [if_neg Bool.false_ne_true]
      exact exists_resolveCeiling_iff (given wanted rfl) sign

/-! The comparison of a pack with the ceiling. -/

theorem max_ne_zero (a : Number) : (Number.int 1).max a ≠ .int 0 := by
  unfold Number.max
  split
  · next more =>
    rintro rfl
    simp at more
  · simp

theorem max_max (a : Number) :
    (Number.int 1).max ((Number.int 1).max a) = (Number.int 1).max a := by
  unfold Number.max
  cases more : (Number.int 1).lt a <;> simp [more]

theorem ofPacks_isOk_iff (total packs limit : Number) :
    (∃ advisory, Advisory.ofPacks total packs limit = .ok advisory) ↔
      total.Divides ((Number.int 1).max packs) ∧ ((Number.int 1).max limit).Converts := by
  unfold Advisory.ofPacks
  dsimp only
  rw [← Number.isSome_quotient?_iff (max_ne_zero packs)]
  cases total.quotient? ((Number.int 1).max packs) with
  | none => simp
  | some average =>
    have compared := Number.isSome_quotient?_iff (a := .float average) (max_ne_zero limit)
    have converts : (Number.float average).Divides ((Number.int 1).max limit) ↔
        ((Number.int 1).max limit).Converts := ⟨And.right, fun converts => ⟨trivial, converts⟩⟩
    rw [← converts, ← compared]
    dsimp only
    generalize (Number.float average).quotient? ((Number.int 1).max limit) = utilization
    cases utilization <;> simp

/-! All operations. -/

/-- The offset of the later part of a window is a number, so no split stands for a failed one. -/
theorem exists_breakOffset {width : Nat} (small : (width : ℚ) < Binary64.overflow) :
    ∃ offset, ((Binary64.ofInt width).mul breakShare).truncate? = some offset := by
  have size : ((width : Int).natAbs : ℚ) < Binary64.overflow * (1 : Nat) := by
    rwa [Int.natAbs_natCast, Nat.cast_one, mul_one]
  obtain ⟨m, e, finite⟩ := Binary64.ofRatio_finite_of_lt size ((width : Int) < 0)
  have fits : (Binary64.ofInt width).Fits := Binary64.fits_ofRatio _ _ _
  obtain ⟨p, value⟩ : ∃ p, (Binary64.ofInt width).toRat? = some p :=
    ⟨_, congrArg Binary64.toRat? finite⟩
  obtain ⟨share, part, sign, less⟩ := exists_toRat?_breakShare
  have bound := fits.abs_le_largest value
  have step := Binary64.one_lt_step
  have below : |p * share| < Binary64.overflow := by
    calc |p * share| = |p| * share := by rw [abs_mul, abs_of_nonneg sign]
      _ ≤ |p| * 1 := by
        gcongr
        linarith
      _ < Binary64.overflow := by
        rw [Binary64.overflow]
        linarith
  obtain ⟨r, product⟩ := Binary64.exists_toRat?_mul value part below
  exact ⟨_, congrArg (Option.map _) product⟩

/-- When each operation returns a value, from what it is given. Finding the files above a ceiling and
splitting a text always do, the latter as no text has more characters than a double can hold. -/
structure Answers (window : Number) (configured : Option Number) (files : List PackFile)
    (oversized : List OversizedFile) (ceiling : Int) (total packs limit : Number) : Prop where
  derived : (∃ c, deriveCeiling window = .ok c) ↔ window.Finite
  resolved : (∃ c, resolveCeiling configured window = .ok c) ↔
    (ceilingSource configured window).Finite
  cut : (windowOf ceiling : ℚ) < Binary64.overflow →
    ∃ offset, ((Binary64.ofInt (windowOf ceiling)).mul breakShare).truncate? = some offset
  balanced : (∃ b, balance files ceiling = .ok b) ↔
    ∀ file ∈ (findOversized files (max 1 ceiling)).take maxExamples,
      (file.tokenCount : ℚ) < showable
  foretold : (∃ counts, forecast files ceiling = .ok counts) ↔
    0 < ceiling → ∀ file ∈ files, ceiling < file.effectiveTokens →
      (file.effectiveTokens : ℚ) < Binary64.overflow * ceiling
  warned : (∃ warning, oversizedWarning oversized ceiling = .ok warning) ↔
    oversized ≠ [] → (∀ file ∈ oversized.take maxExamples, HasText file.tokenCount) ∧
      HasText ceiling
  compared : (∃ advisory, Advisory.ofPacks total packs limit = .ok advisory) ↔
    total.Divides ((Number.int 1).max packs) ∧ ((Number.int 1).max limit).Converts

structure FallsBack (window : Number) (configured : Option Number) (files : List PackFile)
    (ceiling : Int) (total packs limit : Number) : Prop where
  derived : ∀ c, deriveCeiling window = .ok c → minAdvisory ≤ c ∧ c ≤ maxAdvisory
  ignored : (∀ wanted ∈ configured, wanted.le (.int 0) = true) →
    resolveCeiling configured window = deriveCeiling window
  resolved : ∀ c, resolveCeiling configured window = .ok c → 1 ≤ c
  counted : ∀ file ∈ files, 0 ≤ file.effectiveTokens
  unlimited : ceiling ≤ 0 → findOversized files ceiling = [] ∧ forecast files ceiling = .ok [] ∧
    ∀ content, splitByBudget content ceiling = [content]
  silent : oversizedWarning [] ceiling = .ok none
  balanced : balance files ceiling = balance files (max 1 ceiling)
  compared : Advisory.ofPacks total packs limit =
    Advisory.ofPacks total ((Number.int 1).max packs) ((Number.int 1).max limit)

/-- Every operation returns a value exactly as long as its numbers are finite, a double can hold what
it computes with and a text what it shows, and then a degenerate argument stands for nothing or for the
nearest one that makes sense. -/
theorem strategy_answers_iff (window : Number) (configured : Option Number) (files : List PackFile)
    (oversized : List OversizedFile) (ceiling : Int) (total packs limit : Number)
    (encoded : window.Encoded) (given : ∀ wanted ∈ configured, wanted.Encoded) :
    Answers window configured files oversized ceiling total packs limit ∧
      FallsBack window configured files ceiling total packs limit := by
  constructor
  · exact
      { derived := deriveCeiling_isOk_iff encoded
        resolved := resolveCeiling_isOk_iff_source encoded given
        cut := exists_breakOffset
        balanced := balance_isOk_iff files ceiling
        foretold := forecast_isOk_iff files ceiling
        warned := oversizedWarning_isOk_iff oversized ceiling
        compared := ofPacks_isOk_iff total packs limit }
  · refine
      { derived := fun _ => derived_bounds
        ignored := fun low => ?_
        resolved := fun _ => one_le_of_resolveCeiling
        counted := fun file _ => ?_
        unlimited := fun low => ⟨if_pos low, if_pos low, fun content => if_pos low⟩
        silent := rfl
        balanced := ?_
        compared := ?_ }
    · cases configured with
      | none => rfl
      | some wanted => exact resolveCeiling_of_le (low wanted rfl)
    · unfold PackFile.effectiveTokens
      split <;> omega
    · rw [balance, balance, max_eq_right (le_max_left 1 ceiling)]
    · rw [Advisory.ofPacks, Advisory.ofPacks, max_max, max_max]

def hugeFiles : List PackFile := [⟨"a.md", "", some (10 ^ 400)⟩]

theorem strategy_answers_iff_hugeFiles :
    let infinite : Number := .float (.infinite false)
    infinite.Encoded ∧ (∀ wanted ∈ (none : Option Number), wanted.Encoded) ∧
      Answers infinite none hugeFiles [] 1 infinite (.int 0) infinite ∧
      FallsBack infinite none hugeFiles 1 infinite (.int 0) infinite ∧
      (¬ ∃ ceiling, resolveCeiling none infinite = .ok ceiling) ∧
      ∃ advisory, Advisory.ofPacks infinite (.int 0) infinite = .ok advisory := by
  have encoded : (Number.float (.infinite false)).Encoded := ⟨0x7ff0000000000000, by decide⟩
  obtain ⟨answers, fallsBack⟩ := strategy_answers_iff (.float (.infinite false)) none hugeFiles [] 1
    (.float (.infinite false)) (.int 0) (.float (.infinite false)) encoded nofun
  refine ⟨encoded, nofun, answers, fallsBack, ?_, answers.compared.mpr ?_⟩
  · rw [answers.resolved]
    rintro ⟨_, ⟨⟩⟩
  · have one : (Number.int 1).max (.int 0) = .int 1 := rfl
    have above : (Number.int 1).max (.float (.infinite false)) = .float (.infinite false) := by
      decide
    rw [one, above]
    refine ⟨⟨trivial, ?_⟩, trivial⟩
    rw [Number.Converts, Int.cast_one, abs_one]
    exact lt_of_lt_of_le (by norm_num) million_le_overflow

theorem strategy_overflows :
    deriveCeiling (.float (.infinite false)) = .error .outOfRange ∧
      deriveCeiling (.float .nan) = .error .badValue ∧
      deriveCeiling (.int (10 ^ 400)) = .error .outOfRange ∧
      resolveCeiling (some (.float (.infinite false))) (.int 200000) = .error .outOfRange ∧
      resolveCeiling (some (.float .nan)) (.int 200000) = .error .badValue ∧
      balance hugeFiles 1 = .error .outOfRange ∧
      forecast hugeFiles 1 = .error .outOfRange ∧
      oversizedWarning (findOversized hugeFiles 1) 1 = .error .outOfRange ∧
      oversizedWarning [⟨"a.md", 5⟩] (-(10 ^ 5000 : Nat)) = .error .badValue ∧
      Advisory.ofPacks (.int (10 ^ 400)) (.int 1) (.int 1) = .error .outOfRange := by
  decide +kernel

end Budget

end PromptPack
