import PromptPack.Proofs.Budget.Ceiling
import PromptPack.Proofs.Numeric.Signed

/-! The share of the window in exact numbers. The code multiplies by a double that is not quite two
twenty-fifths, adds a half and rounds after each step; the exact share keeps one fiftieth away from
the midpoints, and the windows whose errors are larger are cut to the bounds anyway. Main statement:
`resolveCeiling_nominal`. -/

namespace PromptPack.Budget

open Binary64 (roundingError unitRoundoff underflowError)

variable {window wanted n : Int} {p q r w : ℚ}

/-- Two twenty-fifths of the window to the nearest integer, a half up, within the bounds. -/
def nominalCeiling (window : Int) : Int :=
  min maxAdvisory (max minAdvisory ⌊(2 * window / 25 + 1 / 2 : ℚ)⌋)

theorem nominalCeiling_mono (le : window ≤ wanted) : nominalCeiling window ≤ nominalCeiling wanted := by
  have le : (window : ℚ) ≤ wanted := Int.cast_le.mpr le
  unfold nominalCeiling
  gcongr

theorem one_le_nominalCeiling (window : Int) : 1 ≤ nominalCeiling window := by
  unfold nominalCeiling minAdvisory maxAdvisory
  omega

/-! The errors of the two roundings. -/

theorem roundingError_le (q : ℚ) : roundingError q ≤ q / 2 ^ 53 + 1 / 2 ^ 100 := by
  have finest : underflowError ≤ 1 / 2 ^ 100 := by
    calc (2 : ℚ) ^ (Binary64.minExponent - 1) ≤ 2 ^ (-100 : Int) :=
          zpow_le_zpow_right₀ one_le_two (by decide)
      _ = 1 / 2 ^ 100 := by norm_num
  rw [roundingError, unitRoundoff, zpow_neg, ← div_eq_mul_inv]
  exact add_le_add_right finest _

theorem toRat?_windowShare : windowShare.toRat? = some (5764607523034235 / 2 ^ 56) := by
  have bits : windowShare = .finite false 5764607523034235 (-56) := by decide +kernel
  rw [bits, Binary64.toRat?, Binary64.scale_eq]
  norm_num

theorem half_error {x : Binary64} (value : x.toRat? = some p)
    (sum : (x.add .half).toRat? = some r) :
    |r - (p + 1 / 2)| ≤ (|p| + 1 / 2) / 2 ^ 53 + 1 / 2 ^ 100 := by
  have size : |p + 1 / 2| ≤ |p| + 1 / 2 := by
    calc |p + 1 / 2| ≤ |p| + |1 / 2| := abs_add_le _ _
      _ = |p| + 1 / 2 := by norm_num
  calc |r - (p + 1 / 2)| ≤ roundingError |p + 1 / 2| :=
        Binary64.add_near value Binary64.toRat?_half sum
    _ ≤ |p + 1 / 2| / 2 ^ 53 + 1 / 2 ^ 100 := roundingError_le _
    _ ≤ (|p| + 1 / 2) / 2 ^ 53 + 1 / 2 ^ 100 := by gcongr

theorem share_error {share : ℚ} (constant : share = 5764607523034235 / 2 ^ 56)
    (near : |p - w * share| ≤ |w * share| / 2 ^ 53 + 1 / 2 ^ 100)
    (half : |r - (p + 1 / 2)| ≤ (|p| + 1 / 2) / 2 ^ 53 + 1 / 2 ^ 100) :
    |r - (2 * w / 25 + 1 / 2)| ≤ |w| / 2 ^ 55 + 1 / 2 ^ 50 := by
  subst constant
  rw [abs_mul, abs_of_pos (by norm_num : (0 : ℚ) < 5764607523034235 / 2 ^ 56)] at near
  have low := neg_abs_le w
  have high := le_abs_self w
  have near := abs_le.mp near
  have size : |p| ≤ |w| / 12 + 1 / 2 ^ 90 := abs_le.mpr ⟨by linarith, by linarith⟩
  have half := abs_le.mp half
  exact abs_le.mpr ⟨by linarith, by linarith⟩

theorem exists_raised_share (small : |window| < 2 ^ 50) :
    ∃ r : ℚ, |r - (2 * window / 25 + 1 / 2)| ≤ |(window : ℚ)| / 2 ^ 55 + 1 / 2 ^ 50 ∧
      deriveCeiling (.int window) = .ok (min maxAdvisory (max minAdvisory ⌊r⌋)) := by
  rw [Int.abs_eq_natAbs] at small
  obtain ⟨x, found, fits, value⟩ := Binary64.exists_ofInt?_exact (n := window) (by omega)
  have below : |(window : ℚ) * (5764607523034235 / 2 ^ 56)| < Binary64.overflow := by
    have bound := fits.abs_le_largest value
    have step := Binary64.one_lt_step
    have part : |(5764607523034235 / 2 ^ 56 : ℚ)| ≤ 1 := by norm_num
    calc |(window : ℚ) * (5764607523034235 / 2 ^ 56)|
        = |(window : ℚ)| * |5764607523034235 / 2 ^ 56| := abs_mul _ _
      _ ≤ |(window : ℚ)| * 1 := by gcongr
      _ < Binary64.overflow := by
        rw [Binary64.overflow]
        linarith
  obtain ⟨p, product⟩ := Binary64.exists_toRat?_mul value toRat?_windowShare below
  obtain ⟨r, sum⟩ := Binary64.exists_toRat?_add_half (Binary64.fits_mul x windowShare) product
  have near := (Binary64.mul_near value toRat?_windowShare product).trans (roundingError_le _)
  have rounded : roundHalfUp (x.mul windowShare) = .ok ⌊r⌋ := by
    rw [roundHalfUp_eq_ok, Binary64.floor?, sum]
    rfl
  refine ⟨r, share_error rfl near (half_error product sum), ?_⟩
  have converted : toDouble (.int window) = .ok x := toDouble_eq_ok.mpr found
  rw [deriveCeiling, converted]
  change (roundHalfUp (x.mul windowShare)).map _ = _
  rw [rounded]
  rfl

/-! The whole number below the share. -/

theorem floor_eq_of_near (near : |r - (2 * window / 25 + 1 / 2)| < 1 / 50) :
    ⌊r⌋ = ⌊(2 * window / 25 + 1 / 2 : ℚ)⌋ := by
  obtain ⟨low, high⟩ := abs_lt.mp near
  have split := Int.mul_ediv_add_emod (4 * window + 25) 50
  -- Four windows and twenty-five are odd, so fifty never divides them.
  have least : 50 * ((4 * window + 25) / 50) + 1 ≤ 4 * window + 25 := by omega
  have most : 4 * window + 25 + 1 ≤ 50 * ((4 * window + 25) / 50) + 50 := by omega
  have least : 50 * (((4 * window + 25) / 50 : Int) : ℚ) + 1 ≤ 4 * window + 25 := by
    exact_mod_cast least
  have most : 4 * (window : ℚ) + 25 + 1 ≤ 50 * ((4 * window + 25) / 50 : Int) + 50 := by
    exact_mod_cast most
  trans (4 * window + 25) / 50
  · exact Int.floor_eq_iff.mpr ⟨by linarith, by linarith⟩
  · exact (Int.floor_eq_iff.mpr ⟨by linarith, by linarith⟩).symm

theorem clamp_eq_of_far (far : 2 ^ 40 ≤ |window|)
    (near : |r - (2 * window / 25 + 1 / 2)| ≤ 1) :
    min maxAdvisory (max minAdvisory ⌊r⌋) = nominalCeiling window := by
  obtain ⟨low, high⟩ := abs_le.mp near
  unfold nominalCeiling
  rcases le_abs.mp far with wide | negative
  · have wide : (2 : ℚ) ^ 40 ≤ window := by exact_mod_cast wide
    have left : maxAdvisory ≤ ⌊r⌋ := Int.le_floor.mpr (by norm_num [maxAdvisory]; linarith)
    have right : maxAdvisory ≤ ⌊(2 * window / 25 + 1 / 2 : ℚ)⌋ :=
      Int.le_floor.mpr (by norm_num [maxAdvisory]; linarith)
    rw [min_eq_left (le_max_of_le_right left), min_eq_left (le_max_of_le_right right)]
  · have negative : (2 : ℚ) ^ 40 ≤ -window := by exact_mod_cast negative
    have left : ⌊r⌋ ≤ minAdvisory := by
      have := (Int.floor_le r).trans (show r ≤ minAdvisory by norm_num [minAdvisory]; linarith)
      exact_mod_cast this
    have right : ⌊(2 * window / 25 + 1 / 2 : ℚ)⌋ ≤ minAdvisory := by
      have := (Int.floor_le (2 * window / 25 + 1 / 2 : ℚ)).trans
        (show (2 * window / 25 + 1 / 2 : ℚ) ≤ minAdvisory by norm_num [minAdvisory]; linarith)
      exact_mod_cast this
    rw [max_eq_left left, max_eq_left right]

theorem deriveCeiling_nominal (small : |window| < 2 ^ 50) :
    deriveCeiling (.int window) = .ok (nominalCeiling window) := by
  obtain ⟨r, near, derived⟩ := exists_raised_share small
  rw [derived]
  have small : |(window : ℚ)| < 2 ^ 50 := by exact_mod_cast small
  rcases lt_or_ge |window| (2 ^ 40) with close | far
  · have close : |(window : ℚ)| < 2 ^ 40 := by exact_mod_cast close
    rw [nominalCeiling, floor_eq_of_near (near.trans_lt (by linarith))]
  · rw [clamp_eq_of_far far (near.trans (by linarith))]

theorem roundHalfUp_whole (small : |n| < 2 ^ 50) : (toDouble (.int n) >>= roundHalfUp) = .ok n := by
  have bound : |(n : ℚ)| < 2 ^ 50 := by exact_mod_cast small
  rw [Int.abs_eq_natAbs] at small
  obtain ⟨x, found, fits, value⟩ := Binary64.exists_ofInt?_exact (n := n) (by omega)
  obtain ⟨r, sum⟩ := Binary64.exists_toRat?_add_half fits value
  have near := half_error value sum
  obtain ⟨low, high⟩ := abs_le.mp (near.trans (show _ ≤ (1 / 4 : ℚ) by linarith))
  rw [bind_eq_ok]
  refine ⟨x, toDouble_eq_ok.mpr found, ?_⟩
  rw [roundHalfUp_eq_ok, Binary64.floor?, sum, Option.map_some]
  have whole : ⌊r⌋ = n := Int.floor_eq_iff.mpr ⟨by linarith, by linarith⟩
  exact congrArg some whole

/-- Without a positive ceiling of its own a window gets the exact share, and else the ceiling is the
one that is configured. So it is at least one, and no wider window gets a smaller share. -/
theorem resolveCeiling_nominal (window wanted : Int) (small : |window| < 2 ^ 50)
    (given : |wanted| < 2 ^ 50) :
    resolveCeiling none (.int window) = .ok (nominalCeiling window) ∧
      (wanted ≤ 0 →
        resolveCeiling (some (.int wanted)) (.int window) = .ok (nominalCeiling window)) ∧
      (0 < wanted → resolveCeiling (some (.int wanted)) (.int window) = .ok wanted) ∧
      (∀ configured ∈ [none, some (.int wanted)],
        ∃ ceiling, resolveCeiling configured (.int window) = .ok ceiling ∧ 1 ≤ ceiling) ∧
      ∀ wider, window ≤ wider → |wider| < 2 ^ 50 →
        ∃ least most, resolveCeiling none (.int window) = .ok least ∧
          resolveCeiling none (.int wider) = .ok most ∧ least ≤ most := by
  have derived := deriveCeiling_nominal small
  have ignored (low : wanted ≤ 0) :
      resolveCeiling (some (.int wanted)) (.int window) = .ok (nominalCeiling window) := by
    rw [resolveCeiling_of_le (by simpa using low), derived]
  have kept (high : 0 < wanted) :
      resolveCeiling (some (.int wanted)) (.int window) = .ok wanted := by
    rw [resolveCeiling_of_high (by simpa using high), roundHalfUp_whole given]
    exact congrArg Except.ok (max_eq_right high)
  refine ⟨derived, ignored, kept, ?_, ?_⟩
  · intro configured listed
    simp only [List.mem_cons, List.not_mem_nil, or_false] at listed
    rcases listed with rfl | rfl
    · exact ⟨_, derived, one_le_nominalCeiling window⟩
    · rcases Int.lt_or_le 0 wanted with high | low
      · exact ⟨_, kept high, high⟩
      · exact ⟨_, ignored low, one_le_nominalCeiling window⟩
  · intro wider le small
    exact ⟨_, _, derived, deriveCeiling_nominal small, nominalCeiling_mono le⟩

/-- The share of this window is 7500.48, two hundredths below the midpoint, and the product rounds up. -/
theorem resolveCeiling_nominal_besideMidpoint :
    |(93756 : Int)| < 2 ^ 50 ∧ |(-4 : Int)| < 2 ^ 50 ∧
      resolveCeiling none (.int 93756) = .ok 7500 ∧
      resolveCeiling (some (.int (-4))) (.int 93756) = .ok 7500 := by
  have nominal : nominalCeiling 93756 = 7500 := by
    have share : ⌊(2 * (93756 : Int) / 25 + 1 / 2 : ℚ)⌋ = 7500 :=
      Int.floor_eq_iff.mpr ⟨by norm_num, by norm_num⟩
    rw [nominalCeiling, share]
    rfl
  obtain ⟨derived, ignored, _⟩ :=
    resolveCeiling_nominal 93756 (-4) (by decide) (by decide)
  rw [nominal] at derived ignored
  exact ⟨by decide, by decide, derived, ignored (by decide)⟩

end PromptPack.Budget
