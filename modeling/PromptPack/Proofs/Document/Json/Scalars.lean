import Mathlib.Algebra.Group.Nat.Defs
import PromptPack.Document.Json.Reader
import PromptPack.Document.Json.Writer

/-! Scalars in JSON. The digits of an integer are read back as the integer, and the escapes of a
text as the text, whatever follows that does not go on a number. -/

namespace PromptPack.Json

open IntegerText (maxDigits)

/-- Nothing here goes on a number that ends in front of it. -/
def endsNumber (rest : List Char) : Bool :=
  rest.head?.all fun c => !(c.isDigit || c == '.' || c == 'e' || c == 'E')

section Numbers

variable {ds rest : List Char} {n fuel : Nat}

theorem digitsValue_toDigits (n : Nat) : digitsValue (Nat.toDigits 10 n) = n := by
  have value := Nat.ofDigitChars_ten_toDigits (n := n)
  rwa [Nat.ofDigitChars_eq_foldl] at value

theorem toDigits_of_zero_cons (zero : Nat.toDigits 10 n = '0' :: ds) : n = 0 := by
  induction n using Nat.strongRecOn generalizing ds with
  | ind n ih =>
    by_cases small : n < 10
    · rw [Nat.toDigits_of_lt_base small] at zero
      have digit : ∀ n < 10, n.digitChar = '0' → n = 0 := by decide
      exact digit n small (List.cons.inj zero).1
    · rw [Nat.toDigits_of_base_le (by decide) (Nat.le_of_not_lt small)] at zero
      obtain ⟨c, front, found⟩ := List.exists_cons_of_ne_nil (Nat.toDigits_ne_nil (b := 10) (n := n / 10))
      rw [found, List.cons_append] at zero
      have first := (List.cons.inj zero).1
      have none := ih (n / 10) (by omega) (first ▸ found)
      omega

theorem takeWhile_digits (digits : ∀ c ∈ ds, c.isDigit = true) (ended : endsNumber rest = true) :
    (ds ++ rest).takeWhile Char.isDigit = ds := by
  rw [List.takeWhile_append_of_pos digits]
  cases rest with
  | nil => rw [List.takeWhile_nil, List.append_nil]
  | cons c rest =>
    have stop : c.isDigit = false := by
      simp only [endsNumber, List.head?_cons, Option.all_some] at ended
      revert ended
      cases c.isDigit <;> simp
    rw [List.takeWhile_cons, stop, if_neg Bool.false_ne_true, List.append_nil]

theorem readFraction_of_ended (ended : endsNumber rest = true) : readFraction rest = ([], rest) := by
  unfold readFraction
  split
  · cases ended
  · rfl

theorem readExponent_of_ended (ended : endsNumber rest = true) : readExponent rest = (none, rest) := by
  unfold readExponent
  split
  · next e rest =>
    rw [if_neg]
    rintro (rfl | rfl) <;> cases ended
  · rfl

theorem wholeDigits_toDigits (ended : endsNumber rest = true) :
    wholeDigits (Nat.toDigits 10 n ++ rest) = Nat.toDigits 10 n := by
  unfold wholeDigits
  split
  · next more found =>
    obtain ⟨c, ds, digits⟩ := List.exists_cons_of_ne_nil (Nat.toDigits_ne_nil (b := 10) (n := n))
    rw [digits, List.cons_append] at found
    obtain ⟨rfl, _⟩ := List.cons.inj found
    rw [toDigits_of_zero_cons digits, Nat.toDigits_zero]
  · exact takeWhile_digits (fun c => Nat.isDigit_of_mem_toDigits (by decide) (by decide)) ended

theorem readNumber_toDigits (negative : Bool) (small : n < 10 ^ maxDigits)
    (ended : endsNumber rest = true) :
    readNumber negative (Nat.toDigits 10 n ++ rest) =
      .ok (.int (if negative then -(n : Int) else n), rest) := by
  have few : (Nat.toDigits 10 n).length ≤ maxDigits :=
    (Nat.length_toDigits_le_iff (by decide) (by decide)).mpr small
  unfold readNumber
  dsimp only
  rw [wholeDigits_toDigits ended, List.isEmpty_eq_false_iff.mpr Nat.toDigits_ne_nil,
    if_neg Bool.false_ne_true, List.drop_left, readFraction_of_ended ended]
  dsimp only
  rw [readExponent_of_ended ended]
  dsimp only
  rw [List.isEmpty_nil, Option.isNone_none, Bool.and_self, if_pos rfl,
    if_neg (Nat.not_lt.mpr few), digitsValue_toDigits]

theorem readValue_digit {c : Char} (digit : c.isDigit = true) (cs : List Char) :
    readValue (fuel + 1) (c :: cs) = readNumber false (c :: cs) := by
  unfold readValue
  split <;> first | rfl | cases digit

theorem readValue_minus {c : Char} (digit : c.isDigit = true) (cs : List Char) :
    readValue (fuel + 1) ('-' :: c :: cs) = readNumber true (c :: cs) := by
  simp only [readValue]
  split
  · next found =>
    obtain ⟨rfl, _⟩ := List.cons.inj found
    cases digit
  · rfl

theorem toList_toString (n : Int) :
    (toString n).toList = if n < 0 then '-' :: Nat.toDigits 10 n.natAbs else Nat.toDigits 10 n.natAbs := by
  cases n with
  | ofNat m => exact (Nat.toList_repr (n := m)).trans (if_neg (Int.not_lt.mpr (Int.natCast_nonneg m))).symm
  | negSucc m =>
    rw [if_pos (Int.negSucc_lt_zero m), Int.toString_eq_repr, Int.repr, String.toList_append,
      Nat.toList_repr]
    rfl

theorem readValue_integer {n : Int} (small : n.natAbs < 10 ^ maxDigits)
    (ended : endsNumber rest = true) :
    readValue (fuel + 1) ((toString n).toList ++ rest) = .ok (.int n, rest) := by
  obtain ⟨c, ds, digits⟩ :=
    List.exists_cons_of_ne_nil (Nat.toDigits_ne_nil (b := 10) (n := n.natAbs))
  have digit : c.isDigit = true := by
    have first : c ∈ Nat.toDigits 10 n.natAbs := digits ▸ List.mem_cons_self
    exact Nat.isDigit_of_mem_toDigits (by decide) (by decide) first
  rw [toList_toString]
  split
  · next negative =>
    rw [digits, List.cons_append, List.cons_append, readValue_minus digit, ← List.cons_append,
      ← digits, readNumber_toDigits true small ended, if_pos rfl]
    congr 3
    omega
  · next positive =>
    rw [digits, List.cons_append, readValue_digit digit, ← List.cons_append, ← digits,
      readNumber_toDigits false small ended, if_neg Bool.false_ne_true]
    congr 3
    omega

end Numbers

section Texts

variable {cs rest seen : List Char} {fuel : Nat}

theorem escapedChar?_control {n : Nat} (control : n < 32) (rest : List Char) :
    escapedChar? (Value.hexDigits 4 n ++ rest) = some (Char.ofNat n, rest) := by
  have digits : ∀ n < 32,
      Value.hexDigits 4 n = ['0', '0', Nat.digitChar (n / 16), Nat.digitChar (n % 16)] ∧
        hexValue? (Nat.digitChar (n / 16)) = some (n / 16) ∧
        hexValue? (Nat.digitChar (n % 16)) = some (n % 16) := by decide +kernel
  obtain ⟨written, high, low⟩ := digits n control
  have zero : hexValue? '0' = some 0 := rfl
  have unit : unit? (Value.hexDigits 4 n ++ rest) = some (n, rest) := by
    rw [written]
    simp only [List.cons_append, List.nil_append, unit?, List.mapM_cons, List.mapM_nil, zero, high,
      low]
    simp
    omega
  have single : isHighSurrogate n = false ∧ isLowSurrogate n = false := by
    simp [isHighSurrogate, isLowSurrogate]
    omega
  simp [escapedChar?, unit, single, unitChar]

theorem readText_escapeChar (c : Char) (seen rest : List Char) :
    readText (fuel + 1) seen (escapeChar c ++ rest) = readText fuel (c :: seen) rest := by
  have named : ∀ n, c.toNat = n → Char.ofNat n = c := by
    rintro n rfl
    exact Char.ofNat_toNat c
  unfold escapeChar
  split
  · next quote => simp [readText, shortEscape?, quote]
  split
  · next backslash => simp [readText, shortEscape?, backslash]
  split
  · next lineFeed => simp [readText, shortEscape?, lineFeed]
  split
  · next carriageReturn => simp [readText, shortEscape?, carriageReturn]
  split
  · next tab => simp [readText, shortEscape?, tab]
  split
  · next formFeed =>
    obtain rfl := named 12 formFeed
    simp [readText, shortEscape?]
  split
  · next backspace =>
    obtain rfl := named 8 backspace
    simp [readText, shortEscape?]
  split
  · next control =>
    have read := escapedChar?_control control rest
    rw [Char.ofNat_toNat] at read
    simp [readText, read]
  · next quote backslash _ _ _ _ _ plain => simp [readText, quote, backslash, plain]

theorem readText_textChars (enough : cs.length < fuel) :
    readText fuel seen (cs.flatMap escapeChar ++ '"' :: rest) =
      .ok (String.ofList (seen.reverse ++ cs), rest) := by
  induction cs generalizing fuel seen with
  | nil =>
    obtain ⟨fuel, rfl⟩ := Nat.exists_eq_add_one_of_ne_zero (Nat.ne_of_gt enough)
    simp [readText]
  | cons c cs ih =>
    obtain ⟨fuel, rfl⟩ := Nat.exists_eq_add_one_of_ne_zero (Nat.ne_of_gt (Nat.zero_lt_of_lt enough))
    rw [List.flatMap_cons, List.append_assoc, readText_escapeChar,
      ih (Nat.lt_of_succ_lt_succ enough), List.reverse_cons, List.append_assoc, List.singleton_append]

theorem not_return_mem_escapeChar (c : Char) : '\r' ∉ escapeChar c := by
  have hex : ∀ n < 32, '\r' ∉ Value.hexDigits 4 n := by decide +kernel
  unfold escapeChar
  repeat' split
  all_goals simp_all [Ne.symm]

theorem length_le_flatMap_escapeChar (cs : List Char) :
    cs.length ≤ (cs.flatMap escapeChar).length := by
  induction cs with
  | nil => exact Nat.le_refl _
  | cons c cs ih =>
    have some : 0 < (escapeChar c).length := by
      unfold escapeChar
      repeat' split
      all_goals exact Nat.succ_pos _
    rw [List.flatMap_cons, List.length_append, List.length_cons]
    omega

end Texts

end PromptPack.Json
