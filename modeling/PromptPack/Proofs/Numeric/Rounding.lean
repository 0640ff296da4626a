import PromptPack.Proofs.Numeric.Range

/-! How far rounding moves a number: by half a step of its grid, so by a share of it and, among the
subnormals, by half of the finest step. Main statements: `ofRatio_error`, `add_error`, `mul_error`. -/

namespace PromptPack.Binary64

/-- Half a unit in the last of fifty-three places. -/
def unitRoundoff : ℚ := 2 ^ (-53 : Int)

/-- Half of the finest step. -/
def underflowError : ℚ := 2 ^ (minExponent - 1)

/-- How far the double nearest to `q` can be from it. -/
def roundingError (q : ℚ) : ℚ := q * unitRoundoff + underflowError

variable {n d : Nat} {e k : Int} {negative : Bool} {x y : Binary64} {p q r : ℚ}

theorem divEven_error (a : Nat) {b : Nat} (positive : 0 < b) :
    2 * a ≤ 2 * (divEven a b * b) + b ∧ 2 * (divEven a b * b) ≤ 2 * a + b := by
  have split := Nat.div_add_mod' a b
  have small := Nat.mod_lt a positive
  unfold divEven
  dsimp only
  split_ifs <;> (try rw [Nat.add_mul, Nat.one_mul]) <;> constructor <;> omega

theorem significandAt_error (n : Nat) (hd : 0 < d) (e : Int) :
    |(significandAt n d e : ℚ) * 2 ^ e - n / d| ≤ 2 ^ e / 2 := by
  have scale : (0 : ℚ) < d * 2 ^ (-e).toNat := by positivity
  obtain ⟨low, high⟩ := divEven_error (n * 2 ^ (-e).toNat) (b := d * 2 ^ e.toNat) (by positivity)
  rw [← significandAt_eq, ← Nat.cast_le (α := ℚ)] at low high
  push_cast at low high
  rw [← two_zpow_mul e] at low high
  have ratio : (n : ℚ) = n / d * d := (div_mul_cancel₀ _ (Nat.cast_ne_zero.mpr (by omega))).symm
  generalize (n : ℚ) / d = x at ratio ⊢
  rw [ratio] at low high
  rw [abs_le]
  constructor <;> refine le_of_mul_le_mul_right ?_ scale <;> linarith

/-- The grid of a ratio is finer than the ratio by fifty-two places, unless it is the finest one. -/
theorem half_step_le (hn : 0 < n) (hd : 0 < d) :
    (2 : ℚ) ^ max (binade n d - 52) minExponent / 2 ≤ roundingError (n / d) := by
  have ratio : (0 : ℚ) < d := Nat.cast_pos.mpr hd
  have low : (2 : ℚ) ^ binade n d ≤ n / d := by
    rw [le_div_iff₀ ratio, mul_comm]
    exact (binade_spec hn hd).1
  have half (k : Int) : (2 : ℚ) ^ k / 2 = 2 ^ (k - 1) := (zpow_sub_one₀ two_ne_zero k).symm
  have share : (2 : ℚ) ^ (binade n d - 52 - 1) = 2 ^ binade n d * unitRoundoff := by
    rw [unitRoundoff, ← zpow_add₀ two_ne_zero, sub_sub, sub_eq_add_neg]
    rfl
  have roundoff : 0 < unitRoundoff := by unfold unitRoundoff; positivity
  have finest : 0 < underflowError := by unfold underflowError; positivity
  rw [half]
  unfold roundingError
  rcases Int.le_total (binade n d - 52) minExponent with fine | coarse
  · rw [max_eq_right fine]
    have := mul_nonneg (show (0 : ℚ) ≤ n / d by positivity) roundoff.le
    exact le_add_of_nonneg_left this
  · rw [max_eq_left coarse, share]
    have := mul_le_mul_of_nonneg_right low roundoff.le
    linarith

/-- The size of a rounded ratio. A carry doubles the step and halves the significand. -/
theorem abs_toRat?_ofRatio (hn : 0 < n) (hd : 0 < d)
    (value : (ofRatio negative n d).toRat? = some q) :
    |q| = significandAt n d (max (binade n d - 52) minExponent) *
      2 ^ max (binade n d - 52) minExponent := by
  have magnitude (m : Nat) (e : Int) (found : (finite negative m e).toRat? = some q) :
      |q| = m * 2 ^ e := by
    obtain rfl := Option.some.inj found
    have positive : (0 : ℚ) ≤ m * 2 ^ e := by positivity
    cases negative <;> simp [scale_eq, abs_of_nonneg positive]
  unfold ofRatio at value
  rw [if_neg (by omega)] at value
  generalize max (binade n d - 52) minExponent = e at value ⊢
  dsimp only at value
  by_cases carry : significandAt n d e = 2 * hiddenBit
  · rw [if_pos carry] at value
    dsimp only at value
    split at value
    · cases value
    · rw [magnitude _ _ value, carry, zpow_add_one₀ two_ne_zero]
      push_cast
      ring
  · rw [if_neg carry] at value
    dsimp only at value
    split at value
    · cases value
    · exact magnitude _ _ value

theorem ofRatio_error (value : (ofRatio negative n d).toRat? = some q) (hd : 0 < d) :
    |(|q| - n / d)| ≤ roundingError (n / d) := by
  rcases Nat.eq_zero_or_pos n with rfl | hn
  · rw [ofRatio, if_pos (.inl rfl)] at value
    obtain rfl := Option.some.inj value
    simp [scale_eq, roundingError, underflowError]
    positivity
  · rw [abs_toRat?_ofRatio hn hd value]
    exact (significandAt_error n hd _).trans (half_step_le hn hd)

theorem ofInt_error {n : Int} (value : (ofInt n).toRat? = some q) :
    |(|q| - |(n : ℚ)|)| ≤ roundingError |(n : ℚ)| := by
  have error := ofRatio_error value Nat.one_pos
  rwa [Nat.cast_one, div_one, Nat.cast_natAbs, Int.cast_abs] at error

theorem mul_error (left : x.toRat? = some p) (right : y.toRat? = some q)
    (value : (x.mul y).toRat? = some r) : |(|r| - |p * q|)| ≤ roundingError |p * q| := by
  rw [mul_of_finite left right] at value
  have error := ofRatio_error value |p * q|.den_pos
  have ratio : (|p * q|.num.natAbs : ℚ) / |p * q|.den = |p * q| := by
    rw [Nat.cast_natAbs, abs_of_nonneg (Rat.num_nonneg.mpr (abs_nonneg _)), Rat.num_div_den]
  rwa [ratio] at error

theorem nonneg_of_ofRatio (value : (ofRatio false n d).toRat? = some q) : 0 ≤ q := by
  have magnitude (m : Nat) (e : Int) (found : (finite false m e).toRat? = some q) : 0 ≤ q := by
    obtain rfl := Option.some.inj found
    rw [if_neg Bool.false_ne_true, scale_eq]
    positivity
  unfold ofRatio at value
  split at value
  · exact magnitude _ _ value
  · dsimp only at value
    split at value
    all_goals
      dsimp only at value
      split at value
      · cases value
      · exact magnitude _ _ value

theorem nonneg_of_add (left : x.toRat? = some p) (right : y.toRat? = some q) (sum : 0 ≤ p + q)
    (value : (x.add y).toRat? = some r) : 0 ≤ r := by
  rw [add_of_finite left right] at value
  split at value
  · obtain rfl := Option.some.inj value
    simp [scale_eq]
  · rw [ofRat, decide_eq_false (not_lt.mpr sum)] at value
    exact nonneg_of_ofRatio value

theorem add_error (left : x.toRat? = some p) (right : y.toRat? = some q)
    (value : (x.add y).toRat? = some r) : |(|r| - |p + q|)| ≤ roundingError |p + q| := by
  rw [add_of_finite left right] at value
  split at value
  · next none =>
    obtain rfl := Option.some.inj value
    rw [none]
    simp [scale_eq, roundingError, underflowError]
    positivity
  · have error := ofRatio_error value (p + q).den_pos
    have ratio : ((p + q).num.natAbs : ℚ) / (p + q).den = |p + q| := by
      rw [Nat.cast_natAbs, Int.cast_abs]
      conv => rhs; rw [← Rat.num_div_den (p + q), abs_div, Nat.abs_cast]
    rwa [ratio] at error

theorem exists_toRat?_of_add (value : (x.add y).toRat? = some r) : ∃ p, x.toRat? = some p := by
  cases x with
  | nan => cases value
  | infinite s =>
    cases y with
    | nan | finite _ _ _ => cases value
    | infinite t =>
      unfold add at value
      dsimp only at value
      split at value <;> cases value
  | finite _ _ _ => exact ⟨_, rfl⟩

theorem exists_toRat?_of_mul (value : (x.mul y).toRat? = some r) : ∃ p, x.toRat? = some p := by
  cases x with
  | nan => cases value
  | infinite s =>
    cases y with
    | nan => cases value
    | infinite _ | finite _ _ _ =>
      unfold mul at value
      dsimp only at value
      split at value <;> cases value
  | finite _ _ _ => exact ⟨_, rfl⟩

theorem toNat_truncate?_le (part : x.truncate? = some k) :
    ∃ q, x.toRat? = some q ∧ (k.toNat : ℚ) ≤ |q| := by
  obtain ⟨q, value, rfl⟩ := Option.map_eq_some_iff.mp part
  refine ⟨q, value, ?_⟩
  split
  · next negative =>
    have nothing : q.ceil ≤ 0 := Rat.ceil_le_iff.mpr (by rw [Int.cast_zero]; exact negative.le)
    rw [Int.toNat_of_nonpos nothing, Nat.cast_zero]
    exact abs_nonneg q
  · next positive =>
    rw [not_lt] at positive
    have whole : 0 ≤ q.floor := Rat.le_floor_iff.mpr (by rwa [Int.cast_zero])
    rw [abs_of_nonneg positive, ← Int.cast_natCast, Int.toNat_of_nonneg whole]
    exact q.floor_le

end PromptPack.Binary64
