import PromptPack.Proofs.Numeric.Rounding

/-! Rounding a quotient up. A quotient of fewer than fifty-three bits that is no whole number keeps
clear of the whole numbers when it becomes a double, and a whole one stays as it is; so rounding the
double up gives what rounding the exact quotient up gives. Main statement: `ceil?_quotient?`. -/

namespace PromptPack.Binary64

variable {n d : Nat} {negative : Bool} {q : ℚ}

theorem abs_le_of_ofRatio (small : n < 2 ^ 53) (hd : 0 < d) {bound : Nat} (below : n ≤ bound * d)
    (value : (ofRatio negative n d).toRat? = some q) : |q| ≤ bound := by
  rcases Nat.eq_zero_or_pos n with rfl | hn
  · rw [ofRatio, if_pos (.inl rfl)] at value
    obtain rfl := Option.some.inj value
    simp [scale_eq]
  · have fine : max (binade n d - 52) minExponent ≤ 0 := by
      have log : n.log2 < 53 := (Nat.log2_lt (Nat.ne_of_gt hn)).mpr small
      have := binade_le n d
      unfold minExponent
      omega
    rw [abs_toRat?_ofRatio hn hd value]
    generalize max (binade n d - 52) minExponent = e at fine
    have whole : (2 : ℚ) ^ e * 2 ^ (-e).toNat = 1 := by
      rw [two_zpow_mul, Int.toNat_of_nonpos fine, pow_zero]
    -- The whole number lies on the grid of the ratio.
    have least : significandAt n d e ≤ bound * 2 ^ (-e).toNat := by
      apply significandAt_le
      have below : (n : ℚ) ≤ bound * d := by exact_mod_cast below
      have step : (0 : ℚ) < d * 2 ^ e := by positivity
      calc 2 * (n : ℚ) ≤ 2 * (bound * d) := by linarith
        _ < 2 * (bound * d) + d * 2 ^ e := by linarith
        _ = 2 * (bound * d) * (2 ^ e * 2 ^ (-e).toNat) + d * 2 ^ e := by rw [whole, mul_one]
        _ = (2 * (bound * 2 ^ (-e).toNat : Nat) + 1) * (d * 2 ^ e) := by
          push_cast
          ring
    calc (significandAt n d e : ℚ) * 2 ^ e ≤ (bound * 2 ^ (-e).toNat : Nat) * 2 ^ e := by gcongr
      _ = bound * (2 ^ e * 2 ^ (-e).toNat) := by
        push_cast
        ring
      _ = bound := by rw [whole, mul_one]

/-- Two fractions of one denominator lie further apart than a quotient of fewer than fifty-three bits
is moved. -/
theorem roundingError_lt (small : n < 2 ^ 53) (hd : 0 < d) (le : d ≤ n) :
    roundingError (n / d) < 1 / d := by
  have ratio : (0 : ℚ) < d := Nat.cast_pos.mpr hd
  have whole : (n : ℚ) + 1 ≤ 2 ^ 53 := by exact_mod_cast small
  have below : (d : ℚ) ≤ n := by exact_mod_cast le
  have finest : (2 : ℚ) ^ (minExponent - 1) ≤ 2 ^ (-107 : Int) :=
    zpow_le_zpow_right₀ one_le_two (by decide)
  rw [roundingError, unitRoundoff, underflowError, lt_div_iff₀ ratio, add_mul]
  calc (n : ℚ) / d * 2 ^ (-53 : Int) * d + 2 ^ (minExponent - 1) * d
      = n * 2 ^ (-53 : Int) + 2 ^ (minExponent - 1) * d := by
        field_simp
    _ ≤ n * 2 ^ (-53 : Int) + 2 ^ (-107 : Int) * d := by gcongr
    _ < 1 := by
      norm_num
      linarith

theorem quotient?_eq (small : n < 2 ^ 53) (d : Nat) :
    quotient? n d = some (ofRatio false n d) := by
  obtain ⟨m, e, finite⟩ := ofRatio_finite small (by decide) false d
  unfold quotient?
  have sign : (decide ((n : Int) < 0) != decide ((d : Int) < 0)) = false := by
    simp [Int.not_lt.mpr (Int.natCast_nonneg _)]
  rw [sign, Int.natAbs_natCast, Int.natAbs_natCast, finite]

theorem ceil_eq_of_near {bound : Nat} (hd : 0 < d) (reach : bound * d < n + d)
    (near : (n : ℚ) / d - 1 / d < q) (upper : q ≤ bound) : q.ceil = bound := by
  have ratio : (0 : ℚ) < d := Nat.cast_pos.mpr hd
  have reach : (bound : ℚ) * d + 1 ≤ n + d := by exact_mod_cast reach
  have lower : (bound : ℚ) - 1 ≤ n / d - 1 / d := by
    rw [← sub_div, le_div_iff₀ ratio]
    linarith
  apply le_antisymm
  · exact Rat.ceil_le_iff.mpr (by exact_mod_cast upper)
  · have above : ((bound - 1 : Int) : ℚ) < q.ceil := by
      push_cast
      exact (lower.trans_lt near).trans_le Rat.le_ceil
    have := Int.cast_lt.mp above
    omega

theorem ceil?_quotient? (small : n < 2 ^ 53) (hd : 0 < d) (le : d ≤ n) :
    (quotient? n d).bind ceil? = some (((n + (d - 1)) / d : Nat) : Int) := by
  obtain ⟨m, e, finite⟩ := ofRatio_finite small (by decide) false d
  obtain ⟨value, sign⟩ : (ofRatio false n d).toRat? = some ((m : ℚ) * 2 ^ e) ∧
      (0 : ℚ) ≤ (m : ℚ) * 2 ^ e := by
    rw [finite, toRat?, scale_eq]
    exact ⟨by simp, by positivity⟩
  generalize (m : ℚ) * 2 ^ e = q at value sign
  have whole : n ≤ (n + (d - 1)) / d * d ∧ (n + (d - 1)) / d * d < n + d := by
    have split := Nat.div_add_mod' (n + (d - 1)) d
    have rest := Nat.mod_lt (n + (d - 1)) hd
    omega
  have upper := abs_le_of_ofRatio small hd whole.1 value
  have error := abs_le.mp (ofRatio_error value hd)
  have margin := roundingError_lt small hd le
  rw [abs_of_nonneg sign] at upper error
  rw [quotient?_eq small, Option.bind_some, ceil?, value, Option.map_some,
    ceil_eq_of_near hd whole.2 (by linarith) upper]

end PromptPack.Binary64
