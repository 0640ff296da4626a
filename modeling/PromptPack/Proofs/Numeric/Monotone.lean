import PromptPack.Proofs.Numeric.Overflow
import PromptPack.Proofs.Numeric.Signed

/-! Rounding keeps the order of the ratios, and a ratio that lies clear of a number on its own side of
one stays there. Main statements: `toRat?_ofRatio_mono`, `lt_one_of_ofRatio`. -/

namespace PromptPack.Binary64

variable {n d n' d' k : Nat} {e : Int} {negative : Bool} {x y : Binary64} {p q r : ℚ}

theorem divEven_le_of_even {a b : Nat} (even : k % 2 = 0) (below : 2 * a ≤ (2 * k + 1) * b)
    (hb : 0 < b) : divEven a b ≤ k := by
  rcases Nat.lt_or_ge (2 * a) ((2 * k + 1) * b) with less | tie
  · exact divEven_le less
  · have split : a = b * k + b / 2 ∧ b % 2 = 0 := by
      have same : 2 * a = 2 * (b * k) + b := by
        rw [Nat.le_antisymm below tie, Nat.add_mul, Nat.one_mul, Nat.mul_assoc, Nat.mul_comm k]
      omega
    have half : b / 2 < b := Nat.div_lt_self hb (by decide)
    have quotient : a / b = k := by
      rw [split.1, Nat.mul_add_div hb, Nat.div_eq_of_lt half, Nat.add_zero]
    have rest : a % b = b / 2 := by
      rw [split.1, Nat.mul_add_mod, Nat.mod_eq_of_lt half]
    unfold divEven
    dsimp only
    rw [quotient, rest, if_neg (by omega), if_neg (by omega), if_pos even]

theorem divEven_mono {a b a' b' : Nat} (hb : 0 < b) (hb' : 0 < b') (le : a * b' ≤ a' * b) :
    divEven a b ≤ divEven a' b' := by
  obtain ⟨high, _⟩ := divEven_error a' hb'
  by_contra more
  have reach : (2 * divEven a' b' + 1) * b ≤ 2 * a := not_lt.mp fun less => more (divEven_le less)
  -- Both ratios lie on the midpoint behind the smaller result.
  have left : (2 * divEven a' b' + 1) * b * b' ≤ 2 * a * b' := Nat.mul_le_mul_right b' reach
  have right : 2 * a' * b ≤ (2 * divEven a' b' + 1) * b' * b := by
    apply Nat.mul_le_mul_right
    rw [Nat.add_mul, Nat.one_mul, Nat.mul_assoc]
    exact high
  have swap : (2 * divEven a' b' + 1) * b * b' = (2 * divEven a' b' + 1) * b' * b := by
    rw [Nat.mul_right_comm]
  have between : 2 * a * b' ≤ 2 * a' * b := by
    rw [Nat.mul_assoc, Nat.mul_assoc]
    exact Nat.mul_le_mul_left 2 le
  rcases Nat.mod_two_eq_zero_or_one (divEven a' b') with even | odd
  · have tie : 2 * a ≤ (2 * divEven a' b' + 1) * b := by
      apply Nat.le_of_mul_le_mul_right _ hb'
      omega
    exact more (divEven_le_of_even even tie hb)
  · have tie : (2 * divEven a' b' + 1) * b' ≤ 2 * a' := by
      apply Nat.le_of_mul_le_mul_right _ hb
      omega
    exact (lt_divEven odd tie hb').ne rfl

theorem significandAt_mono (hd : 0 < d) (hd' : 0 < d') (le : n * d' ≤ n' * d) :
    significandAt n d e ≤ significandAt n' d' e := by
  rw [significandAt_eq, significandAt_eq]
  apply divEven_mono (by positivity) (by positivity)
  calc n * 2 ^ (-e).toNat * (d' * 2 ^ e.toNat) = n * d' * (2 ^ (-e).toNat * 2 ^ e.toNat) := by ring
    _ ≤ n' * d * (2 ^ (-e).toNat * 2 ^ e.toNat) := Nat.mul_le_mul_right _ le
    _ = n' * 2 ^ (-e).toNat * (d * 2 ^ e.toNat) := by ring

theorem binade_mono (hn : 0 < n) (hd : 0 < d) (hn' : 0 < n') (hd' : 0 < d')
    (le : n * d' ≤ n' * d) : binade n d ≤ binade n' d' := by
  have low := (binade_spec hn hd).1
  have high := (binade_spec hn' hd').2
  have le : (n : ℚ) * d' ≤ n' * d := by exact_mod_cast le
  have hd : (0 : ℚ) < d := Nat.cast_pos.mpr hd
  have hd' : (0 : ℚ) < d' := Nat.cast_pos.mpr hd'
  have power : (2 : ℚ) ^ binade n d < 2 ^ (binade n' d' + 1) := by
    rw [← mul_lt_mul_iff_right₀ (mul_pos hd hd')]
    calc (d : ℚ) * d' * 2 ^ binade n d = d * 2 ^ binade n d * d' := by ring
      _ ≤ n * d' := by gcongr
      _ ≤ n' * d := le
      _ < d' * 2 ^ (binade n' d' + 1) * d := by gcongr
      _ = d * d' * 2 ^ (binade n' d' + 1) := by ring
  have := (zpow_lt_zpow_iff_right₀ one_lt_two).mp power
  omega

theorem hiddenBit_le_significandAt (hn : 0 < n) (hd : 0 < d) :
    hiddenBit ≤ significandAt n d (binade n d - 52) := by
  have ratio : (0 : ℚ) < d := Nat.cast_pos.mpr hd
  have low : (2 : ℚ) ^ binade n d ≤ n / d := by
    rw [le_div_iff₀ ratio, mul_comm]
    exact (binade_spec hn hd).1
  have split : (2 : ℚ) ^ binade n d = hiddenBit * 2 ^ (binade n d - 52) := by
    have places : (hiddenBit : ℚ) = 2 ^ (52 : Int) := by norm_num [hiddenBit]
    rw [places, ← zpow_add₀ two_ne_zero, add_sub_cancel]
  have error := abs_le.mp (significandAt_error n hd (binade n d - 52))
  have step : (0 : ℚ) < 2 ^ (binade n d - 52) := by positivity
  have near : ((hiddenBit : ℚ) - 1 / 2) * 2 ^ (binade n d - 52) ≤
      significandAt n d (binade n d - 52) * 2 ^ (binade n d - 52) := by
    linarith
  have near := (mul_le_mul_iff_left₀ step).mp near
  have whole : (hiddenBit : ℚ) < significandAt n d (binade n d - 52) + 1 := by linarith
  have := Nat.cast_lt.mp (show (hiddenBit : ℚ) <
    ((significandAt n d (binade n d - 52) + 1 : Nat) : ℚ) by push_cast; exact whole)
  omega

theorem toRat?_ofRatio_mono (hd : 0 < d) (hd' : 0 < d') (le : n * d' ≤ n' * d)
    (value : (ofRatio false n d).toRat? = some p) (value' : (ofRatio false n' d').toRat? = some q) :
    p ≤ q := by
  have left := nonneg_of_ofRatio value
  have right := nonneg_of_ofRatio value'
  rcases Nat.eq_zero_or_pos n with rfl | hn
  · rw [ofRatio, if_pos (.inl rfl)] at value
    obtain rfl := Option.some.inj value
    simpa [scale_eq] using right
  · have hn' : 0 < n' := by
      have := Nat.mul_pos hn hd'
      exact Nat.pos_of_mul_pos_right (this.trans_le le)
    have grid := binade_mono hn hd hn' hd' le
    rw [← abs_of_nonneg left, ← abs_of_nonneg right, abs_toRat?_ofRatio hn hd value,
      abs_toRat?_ofRatio hn' hd' value']
    rcases eq_or_lt_of_le (max_le_max_right minExponent (Int.sub_le_sub_right grid 52)) with same | finer
    · rw [← same]
      gcongr
      exact significandAt_mono hd hd' le
    · -- The larger ratio has a grid of its own, so it is past the carry of the smaller one.
      have coarse : max (binade n' d' - 52) minExponent = binade n' d' - 52 := by omega
      have carry := significandAt_le_carry hn hd (le_max_left (binade n d - 52) minExponent)
      have carry : (significandAt n d (max (binade n d - 52) minExponent) : ℚ) ≤ 2 * hiddenBit := by
        exact_mod_cast carry
      have full := hiddenBit_le_significandAt hn' hd'
      have full : (hiddenBit : ℚ) ≤ significandAt n' d' (binade n' d' - 52) := by exact_mod_cast full
      rw [coarse] at finer ⊢
      calc (significandAt n d (max (binade n d - 52) minExponent) : ℚ) *
            2 ^ max (binade n d - 52) minExponent
          ≤ 2 * hiddenBit * 2 ^ max (binade n d - 52) minExponent := by gcongr
        _ = hiddenBit * 2 ^ (max (binade n d - 52) minExponent + 1) := by
          rw [zpow_add_one₀ two_ne_zero]
          ring
        _ ≤ hiddenBit * 2 ^ (binade n' d' - 52) := by
          gcongr
          · exact one_le_two
          · omega
        _ ≤ _ := by gcongr

theorem toRat?_nearest_mono {s t : ℚ} (le : |p| ≤ |q|)
    (value : (ofRatio false |p|.num.natAbs |p|.den).toRat? = some s)
    (value' : (ofRatio false |q|.num.natAbs |q|.den).toRat? = some t) : s ≤ t := by
  refine toRat?_ofRatio_mono |p|.den_pos |q|.den_pos ?_ value value'
  have magnitude (r : ℚ) : (|r|.num.natAbs : ℚ) / |r|.den = |r| := by
    rw [Nat.cast_natAbs, abs_of_nonneg (Rat.num_nonneg.mpr (abs_nonneg r)), Rat.num_div_den]
  rw [← magnitude p, ← magnitude q, div_le_div_iff₀ (Nat.cast_pos.mpr |p|.den_pos)
    (Nat.cast_pos.mpr |q|.den_pos)] at le
  exact_mod_cast le

/-- A ratio further below one than half of the step there is rounded to less than one. -/
theorem lt_one_of_ofRatio (hd : 0 < d) (below : (n : ℚ) / d < 1 - 1 / 2 ^ 54)
    (value : (ofRatio false n d).toRat? = some q) : q < 1 := by
  have sign := nonneg_of_ofRatio value
  rcases Nat.eq_zero_or_pos n with rfl | hn
  · rw [ofRatio, if_pos (.inl rfl)] at value
    obtain rfl := Option.some.inj value
    simp [scale_eq]
  · have ratio : (0 : ℚ) < d := Nat.cast_pos.mpr hd
    have low : (2 : ℚ) ^ binade n d ≤ n / d := by
      rw [le_div_iff₀ ratio, mul_comm]
      exact (binade_spec hn hd).1
    have small : binade n d < 0 := by
      apply (zpow_lt_zpow_iff_right₀ (one_lt_two (α := ℚ))).mp
      rw [zpow_zero]
      linarith
    have fine : (2 : ℚ) ^ max (binade n d - 52) minExponent ≤ 2 ^ (-53 : Int) := by
      apply zpow_le_zpow_right₀ one_le_two
      unfold minExponent
      omega
    have size := abs_toRat?_ofRatio hn hd value
    have error := abs_le.mp (significandAt_error n hd (max (binade n d - 52) minExponent))
    rw [← size, abs_of_nonneg sign] at error
    have step : (2 : ℚ) ^ (-53 : Int) = 1 / 2 ^ 53 := by norm_num
    rw [step] at fine
    have error := error.2
    linarith

/-- A double below a whole number of fifty-three bits keeps a share of it away: both are multiples of
the step of the double, or of one. -/
theorem clear_of_whole {m c : Nat} (places : m < 2 ^ 53) (small : c ≤ 2 ^ 53)
    (below : (m : ℚ) * 2 ^ e < c) : (m : ℚ) * 2 ^ e < c * (1 - 1 / 2 ^ 54) := by
  have step : (0 : ℚ) < 2 ^ e := by positivity
  have small : (c : ℚ) ≤ 2 ^ 53 := by exact_mod_cast small
  have places : (m : ℚ) < 2 ^ 53 := by exact_mod_cast places
  rcases Int.le_total 0 e with coarse | fine
  · obtain ⟨k, rfl⟩ := Int.eq_ofNat_of_zero_le coarse
    have next : (m : ℚ) * 2 ^ k + 1 ≤ c := by
      rw [zpow_natCast] at below
      exact_mod_cast below
    rw [zpow_natCast]
    linarith
  · have unit : (2 : ℚ) ^ e * 2 ^ (-e).toNat = 1 := by
      rw [two_zpow_mul, Int.toNat_of_nonpos fine, pow_zero]
    have next : (m : ℚ) + 1 ≤ c * 2 ^ (-e).toNat := by
      have scaled : (m : ℚ) < c * 2 ^ (-e).toNat := by
        calc (m : ℚ) = m * 2 ^ e * 2 ^ (-e).toNat := by rw [mul_assoc, unit, mul_one]
          _ < c * 2 ^ (-e).toNat := by gcongr
      exact_mod_cast scaled
    have next : (m : ℚ) * 2 ^ e + 2 ^ e ≤ c := by
      calc (m : ℚ) * 2 ^ e + 2 ^ e = (m + 1) * 2 ^ e := by ring
        _ ≤ c * 2 ^ (-e).toNat * 2 ^ e := by gcongr
        _ = c := by rw [mul_assoc, mul_comm ((2 : ℚ) ^ (-e).toNat), unit, mul_one]
    have size : (m : ℚ) * 2 ^ e ≤ 2 ^ 53 * 2 ^ e := by gcongr
    linarith

theorem div_of_finite (left : x.toRat? = some p) (right : y.toRat? = some q) (nonzero : q ≠ 0) :
    x.div y = ofRatio (x.isNegative != y.isNegative) |p / q|.num.natAbs |p / q|.den := by
  cases x with
  | nan => cases left
  | infinite s => cases left
  | finite s m e =>
    cases y with
    | nan => cases right
    | infinite t => cases right
    | finite t n f =>
      obtain rfl := Option.some.inj left
      obtain rfl := Option.some.inj right
      have divisor : n ≠ 0 := by
        rintro rfl
        apply nonzero
        simp [scale_eq]
      have quotient : |scale (if s then -(m : Int) else m) e / scale (if t then -(n : Int) else n) f| =
          scale m (e - f) / n := by
        simp only [scale_eq, abs_div, abs_mul, zpow_sub₀ (two_ne_zero (α := ℚ))]
        cases s <;> cases t <;> simp <;> field_simp
      rw [quotient, div, if_neg divisor]
      rfl

end PromptPack.Binary64
