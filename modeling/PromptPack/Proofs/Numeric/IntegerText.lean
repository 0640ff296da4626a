import Mathlib.Algebra.Group.Nat.Defs
import PromptPack.Numeric.IntegerText

/-! Which integers have a decimal text. -/

namespace PromptPack.IntegerText

variable {n : Int}

theorem isWritable_iff : isWritable n = true ↔ n.natAbs < 10 ^ maxDigits := by
  rw [isWritable, decide_eq_true_eq, Nat.pow_eq]

theorem write_of_lt (few : n.natAbs < 10 ^ maxDigits) : write n = .ok (toString n) :=
  if_pos (isWritable_iff.mpr few)

theorem write_isOk_iff : (∃ text, write n = .ok text) ↔ n.natAbs < 10 ^ maxDigits := by
  rw [← isWritable_iff, write]
  cases isWritable n <;> simp

end PromptPack.IntegerText
