import PromptPack.Budget.Advisory
import PromptPack.Budget.Ceiling
import PromptPack.Proofs.Fault
import PromptPack.Proofs.Numeric.Overflow
import PromptPack.Proofs.Numeric.Rounding

/-! When a ceiling is resolved, and that a pack can then be compared with it. A ceiling that comes
out of a double goes back into one, so no average is divided by a number past the doubles. -/

namespace PromptPack

namespace Number

@[simp] theorem lt_int (m n : Int) : (int m).lt (int n) = decide (m < n) := by
  simp [lt, place?]

@[simp] theorem same_int (m n : Int) : (int m).same (int n) = decide (m = n) := by
  rw [Bool.eq_iff_iff]
  simp [same, place?]

@[simp] theorem le_int (m n : Int) : (int m).le (int n) = decide (m ≤ n) := by
  simp [le, le_iff_lt_or_eq]

theorem max_int (m n : Int) : (int m).max (int n) = int (Max.max m n) := by
  rw [Number.max, lt_int]
  split
  · next less => rw [max_eq_right (of_decide_eq_true less).le]
  · next more => rw [max_eq_left (by simpa using more)]

end Number

namespace Budget

variable {x : Binary64} {part : Binary64 → Option Int} {n ceiling : Int} {window : Number}
  {configured : Option Number}

theorem integerPart_eq_ok : integerPart x part = .ok n ↔ part x = some n := by
  unfold integerPart
  split
  · next found => simp [found]
  · next none => simp [none]
  · next _ none => simp [none]

theorem roundHalfUp_eq_ok : roundHalfUp x = .ok n ↔ (x.add .half).floor? = some n := integerPart_eq_ok

theorem exists_ofInt?_of_roundHalfUp (rounded : roundHalfUp x = .ok n) :
    ∃ y, Binary64.ofInt? n = some y :=
  Binary64.exists_ofInt?_floor (Binary64.fits_add x .half) (roundHalfUp_eq_ok.mp rounded)

theorem derived_bounds (derived : deriveCeiling window = .ok ceiling) :
    minAdvisory ≤ ceiling ∧ ceiling ≤ maxAdvisory := by
  obtain ⟨_, _, derived⟩ := bind_eq_ok.mp derived
  obtain ⟨share, _, derived⟩ := bind_eq_ok.mp derived
  cases derived
  unfold minAdvisory maxAdvisory
  omega

theorem one_le_of_resolveCeiling (resolved : resolveCeiling configured window = .ok ceiling) :
    1 ≤ ceiling := by
  have derived (found : deriveCeiling window = .ok ceiling) : 1 ≤ ceiling := by
    have bounds := derived_bounds found
    unfold minAdvisory at bounds
    omega
  unfold resolveCeiling at resolved
  split at resolved
  · exact derived resolved
  · split at resolved
    · exact derived resolved
    · obtain ⟨_, _, resolved⟩ := bind_eq_ok.mp resolved
      obtain ⟨_, _, resolved⟩ := bind_eq_ok.mp resolved
      cases resolved
      exact le_max_left 1 _

theorem exists_ofInt?_of_resolveCeiling
    (resolved : resolveCeiling configured window = .ok ceiling) :
    ∃ y, Binary64.ofInt? (max 1 ceiling) = some y := by
  have derived : deriveCeiling window = .ok ceiling →
      ∃ y, Binary64.ofInt? (max 1 ceiling) = some y := by
    intro derived
    have bounds := derived_bounds derived
    unfold minAdvisory maxAdvisory at bounds
    have small : (max 1 ceiling).natAbs < 2 ^ 15 := by omega
    exact Binary64.exists_ofInt?_of_bits small (by decide)
  have one : ∃ y, Binary64.ofInt? 1 = some y :=
    Binary64.exists_ofInt?_of_bits (by decide : (1 : Int).natAbs < 2 ^ 1) (by decide)
  unfold resolveCeiling at resolved
  split at resolved
  · exact derived resolved
  · split at resolved
    · exact derived resolved
    · obtain ⟨x, _, resolved⟩ := bind_eq_ok.mp resolved
      obtain ⟨rounded, half, resolved⟩ := bind_eq_ok.mp resolved
      cases resolved
      rcases Int.le_total rounded 1 with low | high
      · rw [max_eq_left low, max_self]
        exact one
      · rw [max_eq_right high, max_eq_right high]
        exact exists_ofInt?_of_roundHalfUp half

/-! When a ceiling is resolved at all. -/

theorem exists_roundHalfUp {q : ℚ} (fits : x.Fits) (value : x.toRat? = some q) :
    ∃ n, roundHalfUp x = .ok n := by
  obtain ⟨n, floor⟩ := Binary64.exists_floor?_add_half fits value
  exact ⟨n, roundHalfUp_eq_ok.mpr floor⟩

theorem exists_deriveCeiling {q : ℚ} (found : window.toBinary64? = some x) (fits : x.Fits)
    (value : x.toRat? = some q) : ∃ ceiling, deriveCeiling window = .ok ceiling := by
  have share : windowShare = .finite false 5764607523034235 (-56) := by decide +kernel
  have part : windowShare.toRat? = some (5764607523034235 / 2 ^ 56) := by
    rw [share, Binary64.toRat?, Binary64.scale_eq]
    norm_num
  have bound := fits.abs_le_largest value
  have step := Binary64.one_lt_step
  have below : |q * (5764607523034235 / 2 ^ 56)| < Binary64.overflow := by
    have size : |(5764607523034235 / 2 ^ 56 : ℚ)| ≤ 1 := by norm_num
    calc |q * (5764607523034235 / 2 ^ 56)| = |q| * |5764607523034235 / 2 ^ 56| := abs_mul _ _
      _ ≤ |q| * 1 := by gcongr
      _ < Binary64.overflow := by
        rw [Binary64.overflow]
        linarith
  obtain ⟨r, product⟩ := Binary64.exists_toRat?_mul value part below
  obtain ⟨rounded, half⟩ := exists_roundHalfUp (Binary64.fits_mul x windowShare) product
  refine ⟨min maxAdvisory (max minAdvisory rounded), ?_⟩
  rw [deriveCeiling, toDouble, found]
  change (roundHalfUp (x.mul windowShare)).map _ = _
  rw [half]
  rfl

theorem exists_deriveCeiling_int {n : Int} (small : n.natAbs < 2 ^ 1000) :
    ∃ ceiling, deriveCeiling (.int n) = .ok ceiling := by
  obtain ⟨x, found⟩ := Binary64.exists_ofInt?_of_bits small (Nat.le_refl 1000)
  obtain ⟨q, value⟩ := Binary64.exists_toRat?_of_ofInt? found
  exact exists_deriveCeiling found (Binary64.fits_of_ofInt? found) value

end Budget

namespace Number

/-- A configured ceiling that does not count, as it is not positive, or that is some number. -/
def Limits : Number → Prop
  | .int n => n ≤ 0 ∨ (Binary64.ofInt? n).isSome
  | .float x => x ≠ .nan ∧ x ≠ .infinite false

/-- An integer, or the double of some bits. -/
def Encoded : Number → Prop
  | .int _ => True
  | .float x => ∃ bits, x = Binary64.ofBits bits

def Finite : Number → Prop
  | .int n => |(n : ℚ)| < Binary64.overflow
  | .float x => ∃ q, x.toRat? = some q

variable {a : Number} {x : Binary64}

theorem finite_iff : a.Finite ↔ ∃ x q, a.toBinary64? = some x ∧ x.toRat? = some q := by
  cases a with
  | int n =>
    rw [Finite, ← Binary64.isSome_ofInt?_iff, Option.isSome_iff_exists]
    constructor
    · rintro ⟨x, found⟩
      obtain ⟨q, value⟩ := Binary64.exists_toRat?_of_ofInt? found
      exact ⟨x, q, found, value⟩
    · rintro ⟨x, _, found, _⟩
      exact ⟨x, found⟩
  | float x =>
    constructor
    · rintro ⟨q, value⟩
      exact ⟨x, q, rfl, value⟩
    · rintro ⟨_, q, ⟨⟩, value⟩
      exact ⟨q, value⟩

theorem fits_of_encoded (encoded : a.Encoded) (found : a.toBinary64? = some x) : x.Fits := by
  cases a with
  | int n => exact Binary64.fits_of_ofInt? found
  | float y =>
    obtain ⟨bits, rfl⟩ := encoded
    cases found
    exact Binary64.fits_ofBits bits

theorem limits_of_low (low : a.le (.int 0) = true) : a.Limits := by
  cases a with
  | int n => exact .inl (by simpa using low)
  | float x => constructor <;> rintro rfl <;> cases low

theorem limits_iff_finite (high : a.le (.int 0) = false) : a.Limits ↔ a.Finite := by
  cases a with
  | int n =>
    rw [Limits, Finite, Binary64.isSome_ofInt?_iff]
    exact or_iff_right (by simpa using high)
  | float x =>
    cases x with
    | nan => exact iff_of_false (fun limits => limits.1 rfl) nofun
    | infinite negative =>
      cases negative with
      | true => cases high
      | false => exact iff_of_false (fun limits => limits.2 rfl) nofun
    | finite negative m e => exact iff_of_true ⟨nofun, nofun⟩ ⟨_, rfl⟩

end Number

namespace Budget

variable {x : Binary64} {wanted window : Number}

theorem resolveCeiling_of_le (low : wanted.le (.int 0) = true) :
    resolveCeiling (some wanted) window = deriveCeiling window := by
  rw [resolveCeiling, if_pos low]

theorem toDouble_eq_ok : toDouble wanted = .ok x ↔ wanted.toBinary64? = some x := by
  unfold toDouble
  cases wanted.toBinary64? <;> simp

theorem exists_rounded_iff (encoded : wanted.Encoded) :
    (∃ n, (toDouble wanted >>= roundHalfUp) = .ok n) ↔ wanted.Finite := by
  rw [Number.finite_iff]
  constructor
  · rintro ⟨n, rounded⟩
    obtain ⟨x, found, rounded⟩ := bind_eq_ok.mp rounded
    obtain ⟨r, sum, _⟩ := Option.map_eq_some_iff.mp (roundHalfUp_eq_ok.mp rounded)
    obtain ⟨q, value⟩ := Binary64.exists_toRat?_of_add sum
    exact ⟨x, q, toDouble_eq_ok.mp found, value⟩
  · rintro ⟨x, q, found, value⟩
    obtain ⟨n, rounded⟩ := exists_roundHalfUp (Number.fits_of_encoded encoded found) value
    exact ⟨n, bind_eq_ok.mpr ⟨x, toDouble_eq_ok.mpr found, rounded⟩⟩

theorem resolveCeiling_of_high (high : wanted.le (.int 0) = false) :
    resolveCeiling (some wanted) window = (toDouble wanted >>= roundHalfUp).map (max 1) := by
  rw [resolveCeiling, if_neg (by rw [high]; exact Bool.false_ne_true)]
  cases toDouble wanted with
  | error fault => rfl
  | ok x => cases roundHalfUp x <;> rfl

theorem exists_resolveCeiling_iff (encoded : wanted.Encoded) (high : wanted.le (.int 0) = false) :
    (∃ ceiling, resolveCeiling (some wanted) window = .ok ceiling) ↔ wanted.Finite := by
  rw [resolveCeiling_of_high high, ← exists_rounded_iff encoded]
  constructor
  · rintro ⟨_, resolved⟩
    obtain ⟨n, rounded, _⟩ := map_eq_ok.mp resolved
    exact ⟨n, rounded⟩
  · rintro ⟨n, rounded⟩
    exact ⟨_, map_eq_ok.mpr ⟨n, rounded, rfl⟩⟩

theorem resolveCeiling_isOk_iff (encoded : wanted.Encoded)
    (derived : ∃ ceiling, deriveCeiling window = .ok ceiling) :
    (∃ ceiling, resolveCeiling (some wanted) window = .ok ceiling) ↔ wanted.Limits := by
  cases sign : wanted.le (.int 0) with
  | true =>
    rw [resolveCeiling_of_le sign]
    exact iff_of_true derived (Number.limits_of_low sign)
  | false => rw [exists_resolveCeiling_iff encoded sign, Number.limits_iff_finite sign]

theorem deriveCeiling_isOk_iff (encoded : window.Encoded) :
    (∃ ceiling, deriveCeiling window = .ok ceiling) ↔ window.Finite := by
  rw [Number.finite_iff]
  constructor
  · rintro ⟨ceiling, derived⟩
    obtain ⟨x, found, derived⟩ := bind_eq_ok.mp derived
    obtain ⟨share, rounded, _⟩ := bind_eq_ok.mp derived
    obtain ⟨r, sum, _⟩ := Option.map_eq_some_iff.mp (roundHalfUp_eq_ok.mp rounded)
    obtain ⟨_, product⟩ := Binary64.exists_toRat?_of_add sum
    obtain ⟨q, value⟩ := Binary64.exists_toRat?_of_mul product
    exact ⟨x, q, toDouble_eq_ok.mp found, value⟩
  · rintro ⟨x, q, found, value⟩
    exact exists_deriveCeiling found (Number.fits_of_encoded encoded found) value

end Budget

namespace Advisory

theorem exists_ofPacks {total packs ceiling : Int} (small : total.natAbs < 2 ^ 1000) {y : Binary64}
    (limit : Binary64.ofInt? (max 1 ceiling) = some y) :
    ∃ advisory, ofPacks (.int total) (.int packs) (.int ceiling) = .ok advisory := by
  obtain ⟨average, found⟩ := Binary64.exists_quotient? small (Nat.le_refl 1000) (max 1 packs)
  unfold ofPacks
  rw [Number.max_int, Number.max_int]
  dsimp only [Number.quotient?]
  rw [found]
  simp [Number.toBinary64?, limit]

end Advisory

end PromptPack
