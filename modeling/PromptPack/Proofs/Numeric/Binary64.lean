import Mathlib.Algebra.Group.Nat.Defs
import PromptPack.Numeric.Binary64

/-! The range of the doubles. A quotient is finite when its numerator is far enough below the
largest double, whatever the denominator. -/

namespace PromptPack.Binary64

theorem binade_le (n d : Nat) : binade n d ≤ n.log2 := by
  unfold binade
  dsimp only
  split <;> omega

theorem ofRatio_finite {n bits : Nat} (small : n < 2 ^ bits) (range : bits ≤ 1000)
    (negative : Bool) (d : Nat) :
    ∃ significand exponent, ofRatio negative n d = .finite negative significand exponent := by
  unfold ofRatio
  split
  · exact ⟨0, minExponent, rfl⟩
  · next nonzero =>
    have log : n.log2 < bits := (Nat.log2_lt fun zero => nonzero (.inl zero)).mpr small
    have coarse : max (binade n d - 52) minExponent + 1 ≤ maxExponent := by
      have bound := binade_le n d
      unfold minExponent maxExponent
      omega
    dsimp only
    split
    · rw [if_neg (by omega)]
      exact ⟨_, _, rfl⟩
    · rw [if_neg (by omega)]
      exact ⟨_, _, rfl⟩

theorem exists_quotient? {n : Int} {bits : Nat} (small : n.natAbs < 2 ^ bits)
    (range : bits ≤ 1000) (d : Int) : ∃ x, quotient? n d = some x := by
  obtain ⟨m, e, finite⟩ := ofRatio_finite small range ((n < 0) != (d < 0)) d.natAbs
  exact ⟨_, by rw [quotient?, finite]⟩

theorem exists_ofInt?_of_bits {n : Int} {bits : Nat} (small : n.natAbs < 2 ^ bits)
    (range : bits ≤ 1000) : ∃ x, ofInt? n = some x := by
  obtain ⟨m, e, finite⟩ := ofRatio_finite small range (n < 0) 1
  exact ⟨_, by rw [ofInt?, ofInt, finite]⟩

end PromptPack.Binary64
