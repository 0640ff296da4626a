import PromptPack.Proofs.Numeric.Range

/-! Where the doubles end. A ratio at or past the first magnitude that rounds to infinity does so: it
lies on or above the midpoint behind the largest double, whose significand is odd. So the conversions
that refuse infinity succeed exactly below that magnitude. Main statements: `isSome_ofInt?_iff`,
`isSome_quotient?_iff`. -/

namespace PromptPack.Binary64

variable {n d k : Nat} {e : Int}

theorem lt_divEven {a b : Nat} (odd : k % 2 = 1) (reach : (2 * k + 1) * b ≤ 2 * a) (hb : 0 < b) :
    k < divEven a b := by
  have split := Nat.div_add_mod a b
  rw [Nat.add_mul, Nat.one_mul, Nat.mul_assoc, Nat.mul_comm k] at reach
  unfold divEven
  dsimp only
  rcases Nat.lt_trichotomy (a / b) k with less | same | more
  · have small := Nat.mod_lt a hb
    have step := Nat.mul_le_mul_left b less
    rw [Nat.mul_succ] at step
    omega
  · rw [same] at split ⊢
    split_ifs <;> omega
  · split_ifs <;> omega

theorem lt_significandAt (odd : k % 2 = 1) (hd : 0 < d)
    (reach : (2 * k + 1) * (d * 2 ^ e) ≤ 2 * (n : ℚ)) : k < significandAt n d e := by
  have positive : (0 : ℚ) < 2 ^ (-e).toNat := by positivity
  rw [significandAt_eq]
  apply lt_divEven odd _ (by positivity)
  rw [← Nat.cast_le (α := ℚ)]
  push_cast
  rw [← two_zpow_mul e]
  calc (2 * (k : ℚ) + 1) * (d * (2 ^ e * 2 ^ (-e).toNat))
      = (2 * k + 1) * (d * 2 ^ e) * 2 ^ (-e).toNat := by ring
    _ ≤ 2 * n * 2 ^ (-e).toNat := by gcongr
    _ = 2 * (n * 2 ^ (-e).toNat) := by ring

theorem le_overflow : (2 : ℚ) ^ (1023 : Int) ≤ overflow := by
  have step : (2 : ℚ) ^ (1023 : Int) = hiddenBit * 2 ^ maxExponent := by
    rw [show (1023 : Int) = 52 + maxExponent from rfl, zpow_add₀ two_ne_zero]
    norm_num [hiddenBit]
  have whole : (hiddenBit : ℚ) ≤ (2 * hiddenBit - 1 : Nat) := Nat.cast_le.mpr (by decide)
  have some : (0 : ℚ) ≤ 2 ^ (maxExponent - 1) := by positivity
  rw [step, overflow, largest]
  have scaled : (hiddenBit : ℚ) * 2 ^ maxExponent ≤ (2 * hiddenBit - 1 : Nat) * 2 ^ maxExponent := by
    gcongr
  linarith

theorem overflow_pos : 0 < overflow := lt_of_lt_of_le (by positivity) le_overflow

theorem le_binade (hn : 0 < n) (hd : 0 < d) (past : overflow * d ≤ n) : 1023 ≤ binade n d := by
  have high := (binade_spec hn hd).2
  have hd : (0 : ℚ) < d := Nat.cast_pos.mpr hd
  have power : (2 : ℚ) ^ (1023 : Int) < 2 ^ (binade n d + 1) := by
    rw [← mul_lt_mul_iff_right₀ hd]
    calc (d : ℚ) * 2 ^ (1023 : Int) ≤ d * overflow := by gcongr; exact le_overflow
      _ = overflow * d := mul_comm _ _
      _ ≤ n := past
      _ < d * 2 ^ (binade n d + 1) := high
  have := (zpow_lt_zpow_iff_right₀ one_lt_two).mp power
  omega

theorem ofRatio_infinite (hd : 0 < d) (past : overflow * d ≤ n) (negative : Bool) :
    ofRatio negative n d = .infinite negative := by
  have hn : 0 < n := by
    have positive : (0 : ℚ) < overflow * d := mul_pos overflow_pos (Nat.cast_pos.mpr hd)
    exact_mod_cast positive.trans_le past
  have reach := le_binade hn hd past
  -- On the coarsest grid the ratio rounds up into a carry.
  have carry (coarsest : max (binade n d - 52) minExponent = maxExponent) :
      significandAt n d maxExponent = 2 * hiddenBit := by
    apply Nat.le_antisymm
    · exact significandAt_le_carry hn hd (by omega)
    · have odd : (2 * hiddenBit - 1) % 2 = 1 := by decide
      have above : 2 * hiddenBit - 1 < significandAt n d maxExponent := by
        apply lt_significandAt odd hd
        rw [mul_left_comm, ← two_mul_overflow, mul_left_comm, mul_comm (d : ℚ)]
        linarith
      omega
  unfold ofRatio
  rw [if_neg (by omega)]
  have coarse : maxExponent ≤ max (binade n d - 52) minExponent := by
    unfold minExponent maxExponent
    omega
  generalize max (binade n d - 52) minExponent = e at carry coarse
  dsimp only
  by_cases carried : significandAt n d e = 2 * hiddenBit
  · rw [if_pos carried]
    exact if_pos (by omega : maxExponent < e + 1)
  · rw [if_neg carried]
    have past : maxExponent ≠ e := by
      rintro rfl
      exact carried (carry rfl)
    exact if_pos (by omega : maxExponent < e)

section

variable {n d : Int}

theorem isSome_ofInt?_iff : (ofInt? n).isSome ↔ |(n : ℚ)| < overflow := by
  refine ⟨fun some => ?_, fun below => Option.isSome_iff_exists.mpr (exists_ofInt? below)⟩
  by_contra past
  have size : overflow * (1 : Nat) ≤ (n.natAbs : ℚ) := by
    rw [Nat.cast_natAbs, Int.cast_abs, Nat.cast_one, mul_one]
    exact not_lt.mp past
  rw [ofInt?, ofInt, ofRatio_infinite Nat.one_pos size] at some
  cases some

theorem abs_lt_overflow {bits : Nat} (small : n.natAbs < 2 ^ bits) (range : bits ≤ 1000) :
    |(n : ℚ)| < overflow :=
  isSome_ofInt?_iff.mp (Option.isSome_iff_exists.mpr (exists_ofInt?_of_bits small range))

theorem isSome_quotient?_iff (nonzero : d ≠ 0) :
    (quotient? n d).isSome ↔ |(n : ℚ)| < overflow * |(d : ℚ)| := by
  have size (m : Int) : |(m : ℚ)| = m.natAbs := by rw [Nat.cast_natAbs, Int.cast_abs]
  have positive : 0 < d.natAbs := Int.natAbs_pos.mpr nonzero
  rw [size, size]
  constructor
  · intro some
    by_contra past
    rw [quotient?, ofRatio_infinite positive (not_lt.mp past)] at some
    cases some
  · intro below
    obtain ⟨m, e, finite⟩ := ofRatio_finite_of_lt below ((n < 0) != (d < 0))
    rw [quotient?, finite]
    rfl

theorem exists_toRat?_of_quotient? {x : Binary64} (found : quotient? n d = some x) :
    ∃ q, x.toRat? = some q := by
  unfold quotient? at found
  split at found
  · cases found
  · next finite =>
    cases found
    exact exists_toRat?_ofRatio finite

end

end PromptPack.Binary64
