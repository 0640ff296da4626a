import Mathlib.Algebra.Order.Field.Power
import Mathlib.Data.Rat.Floor
import Mathlib.Tactic.Linarith
import Mathlib.Tactic.NormNum
import Mathlib.Tactic.Positivity
import Mathlib.Tactic.Ring
import PromptPack.Proofs.Numeric.Binary64

/-! The largest double, and what stays below it. A ratio that lies nearer to it than to the next
step of its grid is finite; so are a double with a half added and the floor of a double. -/

namespace PromptPack.Binary64

def largest : ℚ := (2 * hiddenBit - 1 : Nat) * 2 ^ maxExponent

/-- The first magnitude that rounds to infinity, half a step above the largest double. -/
def overflow : ℚ := largest + 2 ^ (maxExponent - 1)

theorem two_mul_overflow :
    2 * overflow = (2 * (2 * hiddenBit - 1 : Nat) + 1) * 2 ^ maxExponent := by
  have step : 2 * (2 : ℚ) ^ (maxExponent - 1) = 2 ^ maxExponent := by
    rw [← zpow_one_add₀ two_ne_zero, add_sub_cancel]
  rw [overflow, largest, mul_add, step]
  ring

theorem overflow_le : overflow ≤ 2 ^ (1024 : Int) := by
  have step : (2 : ℚ) ^ (1024 : Int) = 2 * hiddenBit * 2 ^ maxExponent := by
    rw [show (1024 : Int) = 53 + maxExponent from rfl, zpow_add₀ two_ne_zero]
    norm_num [hiddenBit]
  have some : (0 : ℚ) < 2 ^ maxExponent := by positivity
  have double := two_mul_overflow
  rw [Nat.cast_sub (by decide)] at double
  push_cast at double
  linarith

def Fits : Binary64 → Prop
  | .finite _ m e => m < 2 * hiddenBit ∧ e ≤ maxExponent
  | _ => True

section

variable {n d : Nat} {e : Int}

theorem two_zpow_mul (e : Int) : (2 : ℚ) ^ e * 2 ^ (-e).toNat = 2 ^ e.toNat := by
  obtain ⟨k, rfl | rfl⟩ := e.eq_nat_or_neg
  · simp
  · simp

theorem le_scaled_iff : d * 2 ^ e.toNat ≤ n * 2 ^ (-e).toNat ↔ (d : ℚ) * 2 ^ e ≤ n := by
  have positive : (0 : ℚ) < 2 ^ (-e).toNat := by positivity
  rw [← Nat.cast_le (α := ℚ)]
  push_cast
  rw [← two_zpow_mul, ← mul_assoc, mul_le_mul_iff_left₀ positive]

theorem binade_eq (n d : Nat) :
    binade n d = if d * 2 ^ ((n.log2 : Int) - d.log2).toNat ≤ n * 2 ^ (-((n.log2 : Int) - d.log2)).toNat
      then (n.log2 : Int) - d.log2 else n.log2 - d.log2 - 1 := by
  unfold binade
  dsimp only
  generalize (n.log2 : Int) - d.log2 = k
  by_cases sign : 0 ≤ k
  · simp [sign, Int.toNat_of_nonpos]
  · simp [sign, Int.toNat_of_nonpos (Int.le_of_not_le sign)]

theorem binade_spec (hn : 0 < n) (hd : 0 < d) :
    (d : ℚ) * 2 ^ binade n d ≤ n ∧ (n : ℚ) < d * 2 ^ (binade n d + 1) := by
  have n_low : (2 : ℚ) ^ (n.log2 : Int) ≤ n := by
    exact_mod_cast Nat.log2_self_le (Nat.ne_of_gt hn)
  have n_high : (n : ℚ) < 2 ^ ((n.log2 : Int) + 1) := by
    exact_mod_cast Nat.lt_log2_self
  have d_low : (2 : ℚ) ^ (d.log2 : Int) ≤ d := by
    exact_mod_cast Nat.log2_self_le (Nat.ne_of_gt hd)
  have d_high : (d : ℚ) < 2 ^ ((d.log2 : Int) + 1) := by
    exact_mod_cast Nat.lt_log2_self
  rw [binade_eq]
  generalize hk : (n.log2 : Int) - d.log2 = k
  split
  · next reached =>
    refine ⟨le_scaled_iff.mp reached, ?_⟩
    calc (n : ℚ) < 2 ^ ((n.log2 : Int) + 1) := n_high
      _ = 2 ^ (d.log2 : Int) * 2 ^ (k + 1) := by
        rw [← zpow_add₀ two_ne_zero]
        congr 1
        omega
      _ ≤ d * 2 ^ (k + 1) := by gcongr
  · next missed =>
    rw [le_scaled_iff, not_le] at missed
    refine ⟨?_, by rwa [sub_add_cancel]⟩
    calc (d : ℚ) * 2 ^ (k - 1) ≤ 2 ^ ((d.log2 : Int) + 1) * 2 ^ (k - 1) := by gcongr
      _ = 2 ^ (n.log2 : Int) := by
        rw [← zpow_add₀ two_ne_zero]
        congr 1
        omega
      _ ≤ n := n_low

theorem divEven_le {a b k : Nat} (below : 2 * a < (2 * k + 1) * b) : divEven a b ≤ k := by
  have split := Nat.div_add_mod a b
  rw [Nat.add_mul, Nat.one_mul, Nat.mul_assoc, Nat.mul_comm k] at below
  unfold divEven
  dsimp only
  rcases Nat.lt_trichotomy (a / b) k with less | same | more
  · split_ifs <;> omega
  · rw [same] at split ⊢
    rw [if_pos (by omega)]
  · have step := Nat.mul_le_mul_left b more
    rw [Nat.mul_succ] at step
    omega

theorem significandAt_eq (n d : Nat) (e : Int) :
    significandAt n d e = divEven (n * 2 ^ (-e).toNat) (d * 2 ^ e.toNat) := by
  unfold significandAt
  split
  · next sign => simp [Int.toNat_of_nonpos (Int.neg_nonpos_of_nonneg sign)]
  · next sign => simp [Int.toNat_of_nonpos (Int.le_of_not_le sign)]

theorem significandAt_le {k : Nat} (below : 2 * (n : ℚ) < (2 * k + 1) * (d * 2 ^ e)) :
    significandAt n d e ≤ k := by
  have positive : (0 : ℚ) < 2 ^ (-e).toNat := by positivity
  rw [significandAt_eq]
  apply divEven_le
  rw [← Nat.cast_lt (α := ℚ)]
  push_cast
  rw [← two_zpow_mul e]
  calc (2 : ℚ) * (n * 2 ^ (-e).toNat) = 2 * n * 2 ^ (-e).toNat := by ring
    _ < (2 * k + 1) * (d * 2 ^ e) * 2 ^ (-e).toNat := by gcongr
    _ = (2 * k + 1) * (d * (2 ^ e * 2 ^ (-e).toNat)) := by ring

theorem significandAt_le_carry (hn : 0 < n) (hd : 0 < d) (fine : binade n d - 52 ≤ e) :
    significandAt n d e ≤ 2 * hiddenBit := by
  have step : (2 : ℚ) ^ (binade n d + 1) ≤ 2 ^ (e + 53) :=
    zpow_le_zpow_right₀ one_le_two (by omega)
  have split : (2 : ℚ) ^ (e + 53) = 2 * hiddenBit * 2 ^ e := by
    rw [zpow_add₀ two_ne_zero]
    norm_num [hiddenBit]
    ring
  have unit : (0 : ℚ) < d * 2 ^ e := by positivity
  apply significandAt_le
  push_cast
  calc 2 * (n : ℚ) < 2 * (d * 2 ^ (binade n d + 1)) := by
        gcongr
        exact (binade_spec hn hd).2
    _ ≤ 2 * (d * 2 ^ (e + 53)) := by gcongr
    _ = 2 * (2 * hiddenBit) * (d * 2 ^ e) := by
      rw [split]
      ring
    _ ≤ (2 * (2 * hiddenBit) + 1) * (d * 2 ^ e) := by
      gcongr
      linarith

theorem fits_ofRatio (negative : Bool) (n d : Nat) : (ofRatio negative n d).Fits := by
  unfold ofRatio
  split
  · simp [zero, Fits, hiddenBit, minExponent, maxExponent]
  · next proper =>
    have fine : binade n d - 52 ≤ max (binade n d - 52) minExponent := by omega
    have bound := significandAt_le_carry (by omega) (by omega) fine
    dsimp only
    by_cases carry : significandAt n d (max (binade n d - 52) minExponent) = 2 * hiddenBit
    · rw [if_pos carry]
      dsimp only
      split
      · trivial
      · exact ⟨by decide, by omega⟩
    · rw [if_neg carry]
      dsimp only
      split
      · trivial
      · exact ⟨by omega, by omega⟩

theorem binade_lt (hn : 0 < n) (hd : 0 < d) (below : (n : ℚ) < overflow * d) :
    binade n d < 1024 := by
  have low := (binade_spec hn hd).1
  have hd : (0 : ℚ) < d := Nat.cast_pos.mpr hd
  have power : (2 : ℚ) ^ binade n d < 2 ^ (1024 : Int) := by
    rw [← mul_lt_mul_iff_right₀ hd]
    calc (d : ℚ) * 2 ^ binade n d ≤ n := low
      _ < overflow * d := below
      _ ≤ d * 2 ^ (1024 : Int) := by
        rw [mul_comm]
        gcongr
        exact overflow_le
  exact (zpow_lt_zpow_iff_right₀ one_lt_two).mp power

theorem ofRatio_finite_of_lt (below : (n : ℚ) < overflow * d) (negative : Bool) :
    ∃ significand exponent, ofRatio negative n d = .finite negative significand exponent := by
  unfold ofRatio
  split
  · exact ⟨0, minExponent, rfl⟩
  · next proper =>
    have range : binade n d < 1024 := binade_lt (by omega) (by omega) below
    -- On the coarsest grid the ratio rounds to no carry.
    have last : significandAt n d maxExponent ≤ 2 * hiddenBit - 1 := by
      apply significandAt_le
      calc 2 * (n : ℚ) < 2 * (overflow * d) := by gcongr
        _ = _ := by rw [← mul_assoc, two_mul_overflow, mul_assoc, mul_comm (d : ℚ)]
    have coarsest : max (binade n d - 52) minExponent ≤ maxExponent := by
      unfold minExponent maxExponent
      omega
    generalize max (binade n d - 52) minExponent = e at coarsest
    dsimp only
    by_cases carry : significandAt n d e = 2 * hiddenBit
    · have finer : e ≠ maxExponent := by
        rintro rfl
        have some : 0 < hiddenBit := by decide
        omega
      rw [if_pos carry]
      dsimp only
      rw [if_neg (by omega)]
      exact ⟨_, _, rfl⟩
    · rw [if_neg carry]
      dsimp only
      rw [if_neg (by omega)]
      exact ⟨_, _, rfl⟩

end

section

variable {x : Binary64} {m : Nat} {e n : Int} {q : ℚ}

theorem natAbs_num_lt (below : |q| < overflow) : (q.num.natAbs : ℚ) < overflow * q.den := by
  have den : (0 : ℚ) < q.den := Nat.cast_pos.mpr q.den_pos
  rw [← div_lt_iff₀ den, Nat.cast_natAbs, Int.cast_abs]
  rwa [← Rat.num_div_den q, abs_div, abs_of_pos den] at below

theorem ofRat_finite_of_lt (below : |q| < overflow) :
    ∃ negative significand exponent, ofRat q = .finite negative significand exponent :=
  ⟨_, ofRatio_finite_of_lt (natAbs_num_lt below) _⟩

theorem exists_ofInt? (below : |(n : ℚ)| < overflow) : ∃ x, ofInt? n = some x := by
  have size : (n.natAbs : ℚ) < overflow * (1 : Nat) := by
    rw [Nat.cast_natAbs, Int.cast_abs, Nat.cast_one, mul_one]
    exact below
  obtain ⟨m, e, finite⟩ := ofRatio_finite_of_lt size (n < 0)
  exact ⟨_, by rw [ofInt?, ofInt, finite]⟩

theorem scale_eq (m e : Int) : scale m e = m * 2 ^ e := by
  unfold scale
  split
  · next sign =>
    obtain ⟨k, rfl⟩ := Int.eq_ofNat_of_zero_le sign
    simp
  · next sign =>
    obtain ⟨k, rfl⟩ := Int.exists_eq_neg_ofNat (Int.le_of_not_le sign)
    simp [Rat.mkRat_eq_div, div_eq_mul_inv]

theorem Fits.le_largest {negative : Bool} (fits : (finite negative m e).Fits) :
    (m : ℚ) * 2 ^ e ≤ largest := by
  obtain ⟨significand, exponent⟩ := fits
  have whole : (m : ℚ) ≤ (2 * hiddenBit - 1 : Nat) := Nat.cast_le.mpr (by omega)
  rw [largest]
  gcongr
  exact one_le_two

theorem Fits.abs_le_largest (fits : x.Fits) (value : x.toRat? = some q) : |q| ≤ largest := by
  cases x with
  | nan => cases value
  | infinite _ => cases value
  | finite negative m e =>
    obtain rfl := Option.some.inj value
    have bound := fits.le_largest
    have positive : (0 : ℚ) ≤ m * 2 ^ e := by positivity
    cases negative
    · simpa [scale_eq, abs_of_nonneg positive] using bound
    · simpa [scale_eq, abs_of_nonneg positive] using bound

theorem fits_zero (negative : Bool) : (zero negative).Fits := ⟨by decide, by decide⟩

theorem fits_ofRat (q : ℚ) : (ofRat q).Fits := fits_ofRatio _ _ _

variable {y : Binary64} {p : ℚ}

theorem add_of_finite (left : x.toRat? = some p) (right : y.toRat? = some q) :
    x.add y = if p + q = 0 then zero (x.isNegative && y.isNegative) else ofRat (p + q) := by
  cases x <;> try cases left
  cases y <;> try cases right
  rfl

theorem mul_of_finite (left : x.toRat? = some p) (right : y.toRat? = some q) :
    x.mul y = ofRatio (x.isNegative != y.isNegative) |p * q|.num.natAbs |p * q|.den := by
  cases x with
  | nan => cases left
  | infinite s => cases left
  | finite s m e =>
    cases y with
    | nan => cases right
    | infinite t => cases right
    | finite t n f =>
      obtain rfl := Option.some.inj left
      obtain rfl := Option.some.inj right
      have product : |scale (if s then -(m : Int) else m) e * scale (if t then -(n : Int) else n) f| =
          scale (m * n : Nat) (e + f) := by
        simp only [scale_eq, abs_mul, zpow_add₀ (two_ne_zero (α := ℚ))]
        cases s <;> cases t <;> simp <;> ring
      rw [product]
      rfl

theorem fits_add (x y : Binary64) : (x.add y).Fits := by
  cases x <;> cases y <;> try trivial
  · unfold add
    dsimp only
    split <;> trivial
  · have sum (negative : Bool) (q : ℚ) : (if q = 0 then zero negative else ofRat q).Fits := by
      split
      · exact fits_zero negative
      · exact fits_ofRat q
    rw [add_of_finite rfl rfl]
    exact sum _ _

theorem fits_mul (x y : Binary64) : (x.mul y).Fits := by
  cases x <;> cases y <;> try trivial
  · unfold mul
    dsimp only
    split <;> trivial
  · unfold mul
    dsimp only
    split <;> trivial
  · rw [mul_of_finite rfl rfl]
    exact fits_ofRatio _ _ _

theorem exists_toRat?_add (left : x.toRat? = some p) (right : y.toRat? = some q)
    (below : |p + q| < overflow) : ∃ r, (x.add y).toRat? = some r := by
  obtain ⟨_, _, _, finite⟩ := ofRat_finite_of_lt below
  rw [add_of_finite left right, finite]
  split
  · exact ⟨_, rfl⟩
  · exact ⟨_, rfl⟩

theorem exists_toRat?_mul (left : x.toRat? = some p) (right : y.toRat? = some q)
    (below : |p * q| < overflow) : ∃ r, (x.mul y).toRat? = some r := by
  rw [← abs_abs] at below
  obtain ⟨_, _, finite⟩ := ofRatio_finite_of_lt (natAbs_num_lt below) (x.isNegative != y.isNegative)
  rw [mul_of_finite left right, finite]
  exact ⟨_, rfl⟩

theorem fits_ofBits (bits : Nat) : (ofBits bits).Fits := by
  have fraction : bits % hiddenBit < hiddenBit := Nat.mod_lt _ (by decide)
  have field : (bits >>> 52) % 2048 < 2048 := Nat.mod_lt _ (by decide)
  unfold ofBits
  dsimp only
  split
  · split <;> trivial
  · split
    · exact ⟨by omega, by decide⟩
    · refine ⟨by omega, ?_⟩
      unfold minExponent maxExponent
      omega

theorem ofRatio_ne_nan (negative : Bool) (n d : Nat) : ofRatio negative n d ≠ .nan := by
  unfold ofRatio
  split
  · exact nofun
  · dsimp only
    split <;> split <;> exact nofun

theorem fits_of_ofInt? (found : ofInt? n = some x) : x.Fits := by
  have fits := fits_ofRatio (n < 0) n.natAbs 1
  unfold ofInt? ofInt at found
  split at found
  · cases found
  · cases found
    exact fits

theorem exists_toRat?_ofRatio {negative : Bool} {n d : Nat}
    (finite : ∀ s, ofRatio negative n d ≠ .infinite s) :
    ∃ q, (ofRatio negative n d).toRat? = some q := by
  cases number : ofRatio negative n d with
  | nan => exact absurd number (ofRatio_ne_nan negative n d)
  | infinite s => exact absurd number (finite s)
  | finite s m e => exact ⟨_, rfl⟩

theorem exists_toRat?_of_ofInt? (found : ofInt? n = some x) : ∃ q, x.toRat? = some q := by
  unfold ofInt? ofInt at found
  split at found
  · cases found
  · next finite =>
    cases found
    exact exists_toRat?_ofRatio finite

theorem one_lt_step : (1 : ℚ) < 2 ^ (maxExponent - 1) := one_lt_zpow₀ one_lt_two (by decide)

theorem toRat?_half : half.toRat? = some (1 / 2) := by
  rw [half, toRat?, scale_eq]
  norm_num [hiddenBit]

/-- A half more than a double is no overflow. -/
theorem exists_toRat?_add_half (fits : x.Fits) (value : x.toRat? = some q) :
    ∃ r, (x.add half).toRat? = some r := by
  have bound := fits.abs_le_largest value
  have step := one_lt_step
  have below : |q + 1 / 2| < overflow := by
    have half : |(1 / 2 : ℚ)| = 1 / 2 := by norm_num
    calc |q + 1 / 2| ≤ |q| + |1 / 2| := abs_add_le _ _
      _ < overflow := by
        rw [overflow, half]
        linarith
  exact exists_toRat?_add value toRat?_half below

theorem exists_floor?_add_half (fits : x.Fits) (value : x.toRat? = some q) :
    ∃ n, (x.add half).floor? = some n := by
  obtain ⟨r, sum⟩ := exists_toRat?_add_half fits value
  exact ⟨r.floor, by rw [floor?, sum]; rfl⟩

theorem exists_ofInt?_floor (fits : x.Fits) (floor : x.floor? = some n) :
    ∃ y, ofInt? n = some y := by
  obtain ⟨q, value, rfl⟩ := Option.map_eq_some_iff.mp floor
  have bound := abs_le.mp (fits.abs_le_largest value)
  have step := one_lt_step
  have low : (q.floor : ℚ) ≤ q := Int.floor_le q
  have high : q < q.floor + 1 := Int.lt_floor_add_one q
  apply exists_ofInt?
  rw [overflow, abs_lt]
  constructor <;> linarith

end

end PromptPack.Binary64
