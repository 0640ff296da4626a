import PromptPack.Proofs.Budget.Ceiling
import PromptPack.Proofs.Numeric.Monotone

/-! The level of an advisory in exact numbers. Both quotients are rounded, but rounding keeps their
order, and totals below packs times ceiling keep far enough below for neither rounding to reach the
threshold. Main statement: `ofPacks_level`. -/

namespace PromptPack

namespace Number

variable {a b : Number} {x : Binary64} {p q : ℚ}

theorem place?_float (value : x.toRat? = some q) : (float x).place? = some (0, q) := by
  cases x with
  | nan => cases value
  | infinite s => cases value
  | finite s m e => exact congrArg (Option.map _) value

theorem le_of_places (left : a.place? = some (0, p)) (right : b.place? = some (0, q)) :
    a.le b = decide (p ≤ q) := by
  rw [Bool.eq_iff_iff]
  simp [le, lt, same, left, right, le_iff_lt_or_eq]

end Number

namespace AdvisoryLevel

def rank : AdvisoryLevel → Nat
  | .ok => 0
  | .warn => 1
  | .danger => 2

def warnValue : ℚ := 7656119366529843 / 2 ^ 53

def ofRat (u : ℚ) : AdvisoryLevel := if 1 ≤ u then .danger else if warnValue ≤ u then .warn else .ok

variable {u v : ℚ}

theorem rank_ofRat_mono (le : u ≤ v) : (ofRat u).rank ≤ (ofRat v).rank := by
  unfold ofRat
  split_ifs <;> first | decide | linarith

theorem ofRat_eq_danger_iff : ofRat u = .danger ↔ 1 ≤ u := by
  unfold ofRat
  split_ifs with danger <;> simp [danger]

theorem toRat?_warnShare : warnShare.toRat? = some warnValue := by
  have bits : warnShare = .finite false 7656119366529843 (-53) := by decide +kernel
  rw [bits, Binary64.toRat?, Binary64.scale_eq, warnValue]
  norm_num

theorem ofUtilization_eq {x : Binary64} (value : x.toRat? = some u) : ofUtilization x = ofRat u := by
  have one : (Number.int 1).place? = some (0, (1 : ℚ)) := rfl
  have warn := Number.place?_float toRat?_warnShare
  have place := Number.place?_float value
  simp only [ofUtilization, ofRat, Number.le_of_places one place, Number.le_of_places warn place,
    decide_eq_true_eq]

end AdvisoryLevel

namespace Advisory

open Binary64 (ofRatio roundingError unitRoundoff underflowError)

variable {total more p c p' c' : Nat} {packs ceiling : Int} {a u a' u' : ℚ}

/-- What an advisory computes: the average is the rounded quotient of total and packs, and the
utilization that of the average and the ceiling. -/
structure Computes (total packs ceiling : Nat) (a u : ℚ) : Prop where
  average : (ofRatio false total packs).toRat? = some a
  utilization : (ofRatio false |a / ceiling|.num.natAbs |a / ceiling|.den).toRat? = some u

theorem exists_average (small : total ≤ 2 ^ 53) (p : Nat) :
    ∃ x a, Binary64.quotient? total p = some x ∧ x.Fits ∧ x.isNegative = false ∧
      x.toRat? = some a ∧ (ofRatio false total p).toRat? = some a := by
  have bits : total < 2 ^ 54 := by omega
  obtain ⟨m, e, finite⟩ := Binary64.ofRatio_finite bits (by decide) false p
  have sign : (decide ((total : Int) < 0) != decide ((p : Int) < 0)) = false := by
    rw [decide_eq_false (by omega), decide_eq_false (by omega)]
    rfl
  have found : Binary64.quotient? total p = some (.finite false m e) := by
    rw [Binary64.quotient?, sign, Int.natAbs_natCast, Int.natAbs_natCast, finite]
  have fits := Binary64.fits_ofRatio false total p
  rw [finite] at fits ⊢
  exact ⟨_, _, found, fits, rfl, rfl, rfl⟩

theorem exists_computes (small : total ≤ 2 ^ 53) (onePack : max 1 packs = p)
    (oneToken : max 1 ceiling = c) (limit : c ≤ 2 ^ 53) :
    ∃ advisory a u, ofPacks (.int total) (.int packs) (.int ceiling) = .ok advisory ∧
      Computes total p c a u ∧ advisory.level = .ofRat u := by
  obtain ⟨x, a, found, fits, sign, value, average⟩ := exists_average small p
  obtain ⟨y, converted, _, whole⟩ := Binary64.exists_ofInt?_exact (n := c) (by omega)
  have positive : (1 : ℚ) ≤ c := by
    have : 1 ≤ c := by omega
    exact_mod_cast this
  have sign' : y.isNegative = false := by
    have signed := Binary64.signed_of_toRat? whole
    cases negative : y.isNegative with
    | false => rfl
    | true =>
      rw [negative] at signed
      have signed : ((c : Int) : ℚ) ≤ 0 := signed
      push_cast at signed
      linarith
  have nonzero : ((c : Int) : ℚ) ≠ 0 := by
    push_cast
    linarith
  have divided := Binary64.div_of_finite value whole nonzero
  rw [sign, sign', Int.cast_natCast] at divided
  have below : |(|a / c|)| < Binary64.overflow := by
    have bound := fits.abs_le_largest value
    have step := Binary64.one_lt_step
    rw [abs_abs, abs_div, Nat.abs_cast, Binary64.overflow]
    have := div_le_self (abs_nonneg a) positive
    linarith
  obtain ⟨m, e, finite⟩ := Binary64.ofRatio_finite_of_lt (Binary64.natAbs_num_lt below) false
  have utilization : (x.div y).toRat? = some (Binary64.scale m e) := by
    rw [divided]
    change (ofRatio false _ _).toRat? = _
    rw [finite]
    rfl
  refine ⟨⟨x, .int c, x.div y, .ofUtilization (x.div y)⟩, a, _, ?_, ⟨average, ?_⟩,
    AdvisoryLevel.ofUtilization_eq utilization⟩
  · unfold ofPacks
    rw [Number.max_int, Number.max_int, onePack, oneToken]
    simp only [Number.quotient?, Number.toBinary64?, found, converted]
    rfl
  · rw [← utilization, divided]
    rfl

theorem Computes.average_nonneg (computed : Computes total p c a u) : 0 ≤ a :=
  Binary64.nonneg_of_ofRatio computed.average

theorem Computes.mono (computed : Computes total p c a u) (other : Computes more p' c' a' u')
    (grown : total ≤ more) (fewer : p' ≤ p) (lower : c' ≤ c) (onePack : 0 < p')
    (oneToken : 0 < c') : u ≤ u' := by
  have average : a ≤ a' :=
    Binary64.toRat?_ofRatio_mono (onePack.trans_le fewer) onePack (Nat.mul_le_mul grown fewer)
      computed.average other.average
  have sign := computed.average_nonneg
  have positive : (0 : ℚ) < c' := Nat.cast_pos.mpr oneToken
  have lower : (c' : ℚ) ≤ c := Nat.cast_le.mpr lower
  apply Binary64.toRat?_nearest_mono _ computed.utilization other.utilization
  rw [abs_div, abs_div, abs_of_nonneg sign, abs_of_nonneg (sign.trans average), Nat.abs_cast,
    Nat.abs_cast]
  exact div_le_div₀ (sign.trans average) average positive lower

theorem Computes.average_lt (computed : Computes total p c a u) (onePack : 0 < p)
    (oneToken : 0 < c) (limit : p * c ≤ 2 ^ 53) (below : total < p * c) : a < c := by
  have positive : (0 : ℚ) < p := Nat.cast_pos.mpr onePack
  have whole : (1 : ℚ) ≤ c := by exact_mod_cast oneToken
  have less : (total : ℚ) + 1 ≤ p * c := by exact_mod_cast below
  have limit : (p : ℚ) * c ≤ 2 ^ 53 := by exact_mod_cast limit
  have error := Binary64.ofRatio_error computed.average onePack
  rw [abs_of_nonneg computed.average_nonneg] at error
  have finest : underflowError ≤ 1 / 2 ^ 110 := by
    calc (2 : ℚ) ^ (Binary64.minExponent - 1) ≤ 2 ^ (-110 : Int) :=
          zpow_le_zpow_right₀ one_le_two (by decide)
      _ = 1 / 2 ^ 110 := by norm_num
  -- The exact quotient keeps a share of the ceiling away that rounding cannot bridge.
  have gap : (total : ℚ) / p ≤ c * (1 - 1 / 2 ^ 53) := by
    rw [div_le_iff₀ positive]
    nlinarith
  have roundoff : unitRoundoff = 1 / 2 ^ 53 := by norm_num [unitRoundoff]
  rw [roundingError, roundoff] at error
  have error := (abs_le.mp error).2
  linarith

theorem Computes.lt_one (computed : Computes total p c a u) (onePack : 0 < p)
    (oneToken : 0 < c) (limit : p * c ≤ 2 ^ 53) (below : total < p * c) : u < 1 := by
  have less := computed.average_lt onePack oneToken limit below
  have sign := computed.average_nonneg
  have positive : (0 : ℚ) < c := Nat.cast_pos.mpr oneToken
  have bits : total < 2 ^ 54 := by omega
  obtain ⟨m, e, finite⟩ := Binary64.ofRatio_finite bits (by decide) false p
  have fits := Binary64.fits_ofRatio false total p
  have average := computed.average
  rw [finite] at fits average
  obtain rfl := Option.some.inj average
  rw [if_neg Bool.false_ne_true, Binary64.scale_eq, Int.cast_natCast] at less sign
  have small : c ≤ 2 ^ 53 := (Nat.le_mul_of_pos_left c onePack).trans limit
  have clear := Binary64.clear_of_whole fits.1 small less
  apply Binary64.lt_one_of_ofRatio (Rat.den_pos _) _ computed.utilization
  rw [Nat.cast_natAbs, abs_of_nonneg (Rat.num_nonneg.mpr (abs_nonneg _)), Rat.num_div_den]
  rw [if_neg Bool.false_ne_true, Binary64.scale_eq, Int.cast_natCast, abs_div, abs_of_nonneg sign,
    Nat.abs_cast, div_lt_iff₀ positive, mul_comm (1 - _)]
  exact clear

/-- A total that fills all packs is never rounded below the threshold. -/
theorem Computes.one_le (computed : Computes total p c a u) (onePack : 0 < p) (oneToken : 0 < c)
    (limit : c ≤ 2 ^ 53) (filled : p * c ≤ total) : 1 ≤ u := by
  have positive : (0 : ℚ) < c := Nat.cast_pos.mpr oneToken
  have average : (c : ℚ) ≤ a := by
    refine Binary64.toRat?_ofRatio_mono Nat.one_pos onePack ?_
      (Binary64.toRat?_ofRatio_one limit) computed.average
    rwa [Nat.mul_one, Nat.mul_comm]
  have one : (ofRatio false |(1 : ℚ)|.num.natAbs |(1 : ℚ)|.den).toRat? = some 1 := by
    rw [abs_one]
    exact Binary64.toRat?_ofRatio_one (n := 1) (by decide)
  apply Binary64.toRat?_nearest_mono _ one computed.utilization
  rw [abs_one, abs_of_nonneg (div_nonneg computed.average_nonneg positive.le),
    one_le_div positive]
  exact average

theorem danger_iff (computed : Computes total p c a u) (onePack : 0 < p) (oneToken : 0 < c)
    (limit : p * c ≤ 2 ^ 53) : AdvisoryLevel.ofRat u = .danger ↔ p * c ≤ total := by
  rw [AdvisoryLevel.ofRat_eq_danger_iff]
  constructor
  · intro reached
    by_contra below
    exact absurd (computed.lt_one onePack oneToken limit (not_le.mp below)) (not_lt.mpr reached)
  · exact computed.one_le onePack oneToken ((Nat.le_mul_of_pos_left c onePack).trans limit)

/-- Within the exact integers of the doubles, the advisory warns of danger exactly if the total fills
all packs, and its level grows with the total and falls with the packs and with the ceiling. -/
theorem ofPacks_level (total packs ceiling : Int) (nonneg : 0 ≤ total) (small : total ≤ 2 ^ 53)
    (limit : max 1 packs * max 1 ceiling ≤ 2 ^ 53) :
    ∃ advisory, ofPacks (.int total) (.int packs) (.int ceiling) = .ok advisory ∧
      (advisory.level = .danger ↔ max 1 packs * max 1 ceiling ≤ total) ∧
      ∀ more fewer lower : Int, total ≤ more → more ≤ 2 ^ 53 → fewer ≤ packs → lower ≤ ceiling →
        ∃ other, ofPacks (.int more) (.int fewer) (.int lower) = .ok other ∧
          advisory.level.rank ≤ other.level.rank := by
  have natural (n : Int) : ∃ k : Nat, max 1 n = k ∧ 0 < k :=
    ⟨(max 1 n).toNat, by omega, by omega⟩
  obtain ⟨t, rfl⟩ := Int.eq_ofNat_of_zero_le nonneg
  obtain ⟨p, onePack, somePack⟩ := natural packs
  obtain ⟨c, oneToken, someToken⟩ := natural ceiling
  rw [onePack, oneToken] at limit ⊢
  have limit : p * c ≤ 2 ^ 53 := by exact_mod_cast limit
  have fits : c ≤ 2 ^ 53 := (Nat.le_mul_of_pos_left c somePack).trans limit
  have few : t ≤ 2 ^ 53 := by omega
  obtain ⟨advisory, a, u, made, computed, level⟩ := exists_computes few onePack oneToken fits
  refine ⟨advisory, made, ?_, ?_⟩
  · rw [level, danger_iff computed somePack someToken limit]
    exact_mod_cast Iff.rfl
  · intro more fewer lower grown bounded fewerPacks lowerCeiling
    obtain ⟨m, rfl⟩ := Int.eq_ofNat_of_zero_le (nonneg.trans grown)
    obtain ⟨p', onePack', somePack'⟩ := natural fewer
    obtain ⟨c', oneToken', someToken'⟩ := natural lower
    have fewer : p' ≤ p := by omega
    have lower : c' ≤ c := by omega
    have few' : m ≤ 2 ^ 53 := by omega
    obtain ⟨other, a', u', made', computed', level'⟩ :=
      exists_computes few' onePack' oneToken' (lower.trans fits)
    refine ⟨other, made', ?_⟩
    rw [level, level']
    exact AdvisoryLevel.rank_ofRat_mono
      (computed.mono computed' (by omega) fewer lower somePack' someToken')

/-- One token below three packs of a ceiling that no double divides exactly. -/
theorem ofPacks_level_belowThirds :
    0 ≤ (29999 : Int) ∧ (29999 : Int) ≤ 2 ^ 53 ∧ max 1 (3 : Int) * max 1 10000 ≤ 2 ^ 53 ∧
      ∃ advisory other, ofPacks (.int 29999) (.int 3) (.int 10000) = .ok advisory ∧
        advisory.level ≠ .danger ∧ ofPacks (.int 30000) (.int 3) (.int 10000) = .ok other ∧
        advisory.level.rank ≤ other.level.rank := by
  obtain ⟨advisory, made, danger, grows⟩ :=
    ofPacks_level 29999 3 10000 (by decide) (by decide) (by decide)
  obtain ⟨other, made', order⟩ := grows 30000 3 10000 (by decide) (by decide) le_rfl le_rfl
  exact ⟨by decide, by decide, by decide, advisory, other, made,
    fun level => absurd (danger.mp level) (by decide), made', order⟩

end Advisory

end PromptPack
