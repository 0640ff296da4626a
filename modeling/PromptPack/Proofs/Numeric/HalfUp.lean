import PromptPack.Proofs.Numeric.Quotient

/-! Rounding a quotient to the nearest whole number by adding a half and dropping the fraction. Both
steps round, but a quotient of fifty bits keeps so far from the midpoints that it does not cross one;
where it is far smaller than a half the two errors do not reach one. Main statement:
`exists_halfUp_quotient`. -/

namespace PromptPack.Binary64

variable {n d : Nat} {x : Binary64} {q r : ℚ}

theorem truncate?_of_nonneg (value : x.toRat? = some q) (nonneg : 0 ≤ q) :
    x.truncate? = some q.floor := by
  rw [truncate?, value, Option.map_some, if_neg (not_lt.mpr nonneg)]

theorem exists_add_half (fits : x.Fits) (value : x.toRat? = some q) (nonneg : 0 ≤ q) :
    ∃ r, (x.add half).toRat? = some r ∧ 0 ≤ r ∧ |r - (q + 1 / 2)| ≤ roundingError (q + 1 / 2) := by
  obtain ⟨r, sum⟩ := exists_toRat?_add_half fits value
  have positive : 0 ≤ q + 1 / 2 := by linarith
  have sign := nonneg_of_add value toRat?_half positive sum
  have error := add_error value toRat?_half sum
  rw [abs_of_nonneg sign, abs_of_nonneg positive] at error
  exact ⟨r, sum, sign, error⟩

theorem exists_quotient?_error (small : n < 2 ^ 53) (hd : 0 < d) :
    ∃ x q, quotient? n d = some x ∧ x.Fits ∧ x.toRat? = some q ∧ 0 ≤ q ∧
      |q - n / d| ≤ roundingError (n / d) := by
  obtain ⟨m, e, finite⟩ := ofRatio_finite small (by decide) false d
  have value : (ofRatio false n d).toRat? = some (scale m e) := by rw [finite]; rfl
  have nonneg := nonneg_of_ofRatio value
  have error := ofRatio_error value hd
  rw [abs_of_nonneg nonneg] at error
  exact ⟨_, _, quotient?_eq small d, fits_ofRatio false n d, value, nonneg, error⟩

theorem scaled_error (hd : 0 < d) {a b : ℚ} (error : |b - a| ≤ roundingError a) :
    |d * b - d * a| ≤ d * a / 2 ^ 53 + d / 2 ^ 107 := by
  have positive : (0 : ℚ) < d := Nat.cast_pos.mpr hd
  have finest : underflowError ≤ 1 / 2 ^ 107 := by
    calc (2 : ℚ) ^ (minExponent - 1) ≤ 2 ^ (-107 : Int) :=
          zpow_le_zpow_right₀ one_le_two (by decide)
      _ = 1 / 2 ^ 107 := by norm_num
  rw [← mul_sub, abs_mul, abs_of_pos positive]
  calc (d : ℚ) * |b - a| ≤ d * (a * unitRoundoff + underflowError) := by gcongr; exact error
    _ ≤ d * (a * unitRoundoff + 1 / 2 ^ 107) := by gcongr
    _ = d * a / 2 ^ 53 + d / 2 ^ 107 := by
      rw [unitRoundoff]
      norm_num
      ring

/-- The errors of a quotient `a` of `n` and of its sum `b` with a half, all taken `d` times, leave the
whole number below `b` among those nearest to the exact quotient. -/
theorem nearest_of_errors {k : Int} {a b : ℚ} (small : n < 2 ^ 50) (hd : 0 < d) (whole : 0 ≤ k)
    (near : |a - n| ≤ n / 2 ^ 53 + d / 2 ^ 107)
    (half : |b - (a + d / 2)| ≤ (a + d / 2) / 2 ^ 53 + d / 2 ^ 107)
    (floor : d * k ≤ b) (next : b < d * k + d) : 2 * |d * k - n| ≤ d := by
  have near := abs_le.mp near
  have half := abs_le.mp half
  have positive : (0 : ℚ) < d := Nat.cast_pos.mpr hd
  rcases Nat.lt_or_ge (3 * n) d with far | close
  · have far' : 3 * (n : ℚ) < d := by exact_mod_cast far
    have below : (d : ℚ) * k < d * 1 := by linarith
    have zero : k < 1 := by exact_mod_cast (mul_lt_mul_iff_right₀ positive).mp below
    obtain rfl : k = 0 := by omega
    rw [mul_zero, zero_sub, abs_neg, Nat.abs_cast]
    omega
  · have close : (d : ℚ) ≤ 3 * n := by exact_mod_cast close
    have small : (n : ℚ) < 2 ^ 50 := by exact_mod_cast small
    have low : 2 * (n : ℚ) < 2 * (d * k) + d + 1 := by linarith
    have high : 2 * (d * k : ℚ) < 2 * n + d + 1 := by linarith
    norm_cast at low high
    rcases abs_cases (d * k - n : Int) with ⟨size, _⟩ | ⟨size, _⟩ <;> rw [size] <;> omega

/-- The quotient that is rounded to a double, raised by a half, rounded again and cut to a whole number
is one of the whole numbers nearest to the exact quotient. -/
theorem exists_halfUp_quotient (small : n < 2 ^ 50) (hd : 0 < d) :
    ∃ x k, quotient? n d = some x ∧ (x.add half).truncate? = some k ∧ 0 ≤ k ∧
      2 * |d * k - n| ≤ d := by
  obtain ⟨x, q, divided, fits, value, nonneg, near⟩ :=
    exists_quotient?_error (Nat.lt_trans small (by decide)) hd
  obtain ⟨r, sum, sign, half⟩ := exists_add_half fits value nonneg
  have positive : (0 : ℚ) < d := Nat.cast_pos.mpr hd
  have whole : 0 ≤ r.floor := Rat.le_floor_iff.mpr (by exact_mod_cast sign)
  have near := scaled_error hd near
  have half := scaled_error hd half
  rw [mul_div_cancel₀ _ positive.ne'] at near
  rw [mul_add, mul_one_div] at half
  have floor : (d : ℚ) * r.floor ≤ d * r := by gcongr; exact r.floor_le
  have next : (d : ℚ) * r < d * (r.floor + 1) := by gcongr; exact Int.lt_floor_add_one r
  rw [mul_add, mul_one] at next
  exact ⟨x, r.floor, divided, truncate?_of_nonneg sum sign, whole,
    nearest_of_errors small hd whole near half floor next⟩

end PromptPack.Binary64
