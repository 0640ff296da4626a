import PromptPack.Proofs.Numeric.Rounding

/-! Rounding keeps the sign, so what it does to a magnitude it does to the number. Integers of fewer
than fifty-four bits are doubles as they are. Main statements: `add_near`, `mul_near`,
`exists_ofInt?_exact`. -/

namespace PromptPack.Binary64

variable {n d : Nat} {negative : Bool} {x y : Binary64} {p q r : ℚ}

theorem signed_of_toRat? (value : x.toRat? = some q) :
    if x.isNegative then q ≤ 0 else 0 ≤ q := by
  cases x with
  | nan => cases value
  | infinite s => cases value
  | finite s m e =>
    obtain rfl := Option.some.inj value
    have size : (0 : ℚ) ≤ m * 2 ^ e := by positivity
    cases s <;> simpa [isNegative, scale_eq] using size

theorem isNegative_ofRatio (finite : ∀ s, ofRatio negative n d ≠ .infinite s) :
    (ofRatio negative n d).isNegative = negative := by
  unfold ofRatio at finite ⊢
  split
  · rfl
  · next proper =>
    rw [if_neg proper] at finite
    generalize max (binade n d - 52) minExponent = e at finite ⊢
    dsimp only at finite ⊢
    by_cases carry : significandAt n d e = 2 * hiddenBit
    all_goals
      simp only [carry, if_true, if_false] at finite ⊢
      split at finite
      · exact absurd rfl (finite negative)
      · next small =>
        rw [if_neg small]
        rfl

theorem signed_of_ofRatio (value : (ofRatio negative n d).toRat? = some q) :
    if negative then q ≤ 0 else 0 ≤ q := by
  have signed := signed_of_toRat? value
  rwa [isNegative_ofRatio] at signed
  intro s infinite
  rw [infinite] at value
  cases value

theorem abs_sub_eq (left : if negative then p ≤ 0 else 0 ≤ p)
    (right : if negative then q ≤ 0 else 0 ≤ q) : |p - q| = |(|p| - |q|)| := by
  cases negative with
  | false =>
    have left : 0 ≤ p := left
    have right : 0 ≤ q := right
    rw [abs_of_nonneg left, abs_of_nonneg right]
  | true =>
    have left : p ≤ 0 := left
    have right : q ≤ 0 := right
    rw [abs_of_nonpos left, abs_of_nonpos right, neg_sub_neg, abs_sub_comm]

theorem signed_decide (q : ℚ) : if decide (q < 0) then q ≤ 0 else 0 ≤ q := by
  by_cases below : q < 0
  · rw [if_pos (decide_eq_true below)]
    exact below.le
  · rw [if_neg (by simpa using below)]
    exact not_lt.mp below

theorem signed_mul (left : x.toRat? = some p) (right : y.toRat? = some q) :
    if x.isNegative != y.isNegative then p * q ≤ 0 else 0 ≤ p * q := by
  have left := signed_of_toRat? left
  have right := signed_of_toRat? right
  cases hx : x.isNegative <;> cases hy : y.isNegative <;> rw [hx] at left <;> rw [hy] at right <;>
    simp only [Bool.false_eq_true, if_false, if_true] at left right
  · exact mul_nonneg left right
  · exact mul_nonpos_of_nonneg_of_nonpos left right
  · exact mul_nonpos_of_nonpos_of_nonneg left right
  · exact mul_nonneg_of_nonpos_of_nonpos left right

theorem mul_near (left : x.toRat? = some p) (right : y.toRat? = some q)
    (value : (x.mul y).toRat? = some r) : |r - p * q| ≤ roundingError |p * q| := by
  have error := mul_error left right value
  have exact := signed_mul left right
  rw [mul_of_finite left right] at value
  rwa [abs_sub_eq (signed_of_ofRatio value) exact]

theorem add_near (left : x.toRat? = some p) (right : y.toRat? = some q)
    (value : (x.add y).toRat? = some r) : |r - (p + q)| ≤ roundingError |p + q| := by
  have error := add_error left right value
  rw [add_of_finite left right] at value
  split at value
  · next none =>
    obtain rfl := Option.some.inj value
    rw [none] at error ⊢
    simpa [scale_eq] using error
  · rwa [abs_sub_eq (signed_of_ofRatio value) (signed_decide (p + q))]

theorem abs_toRat?_ofRatio_one (small : n ≤ 2 ^ 53) (value : (ofRatio negative n 1).toRat? = some q) :
    |q| = n := by
  rcases Nat.eq_zero_or_pos n with rfl | positive
  · rw [ofRatio, if_pos (.inl rfl)] at value
    obtain rfl := Option.some.inj value
    simp [scale_eq]
  rcases Nat.lt_or_eq_of_le small with small | rfl
  · have fine : max (binade n 1 - 52) minExponent ≤ 0 := by
      have log : n.log2 < 53 := (Nat.log2_lt (Nat.ne_of_gt positive)).mpr small
      have := binade_le n 1
      unfold minExponent
      omega
    rw [abs_toRat?_ofRatio positive Nat.one_pos value]
    generalize max (binade n 1 - 52) minExponent = e at fine
    have whole : significandAt n 1 e = n * 2 ^ (-e).toNat := by
      simp [significandAt_eq, Int.toNat_of_nonpos fine, divEven, Nat.mod_one]
    have unit : (2 : ℚ) ^ e * 2 ^ (-e).toNat = 1 := by
      rw [two_zpow_mul, Int.toNat_of_nonpos fine, pow_zero]
    rw [whole]
    push_cast
    rw [mul_assoc, mul_comm ((2 : ℚ) ^ (-e).toNat), unit, mul_one]
  · have carried : ofRatio negative (2 ^ 53) 1 = .finite negative hiddenBit 1 := by
      cases negative <;> decide +kernel
    rw [carried] at value
    obtain rfl := Option.some.inj value
    cases negative <;> norm_num [scale_eq, hiddenBit]

theorem toRat?_ofRatio_one (small : n ≤ 2 ^ 53) : (ofRatio false n 1).toRat? = some (n : ℚ) := by
  have bits : n < 2 ^ 54 := by omega
  obtain ⟨m, e, finite⟩ := ofRatio_finite bits (by decide) false 1
  have value : (ofRatio false n 1).toRat? = some (scale m e) := by rw [finite]; rfl
  rw [value, ← abs_toRat?_ofRatio_one small value, abs_of_nonneg (nonneg_of_ofRatio value)]

theorem exists_ofInt?_exact {n : Int} (small : n.natAbs ≤ 2 ^ 53) :
    ∃ x, ofInt? n = some x ∧ x.Fits ∧ x.toRat? = some (n : ℚ) := by
  have bits : n.natAbs < 2 ^ 54 := by omega
  obtain ⟨x, found⟩ := exists_ofInt?_of_bits bits (by decide)
  obtain ⟨q, value⟩ := exists_toRat?_of_ofInt? found
  have same : ofInt n = x := by
    unfold ofInt? at found
    split at found
    · cases found
    · exact Option.some.inj found
  have size := value
  rw [← same, ofInt] at size
  have sign := signed_decide n
  simp only [Int.cast_lt_zero] at sign
  have exact := abs_sub_eq (signed_of_ofRatio size) sign
  rw [abs_toRat?_ofRatio_one small size, Nat.cast_natAbs, Int.cast_abs, sub_self, abs_zero,
    abs_eq_zero, sub_eq_zero] at exact
  exact ⟨x, found, fits_of_ofInt? found, exact ▸ value⟩

end PromptPack.Binary64
